import MakeDeps.Proofs.Makefile.Render
import MakeDeps.Proofs.Search.Order

/-!
# When no Makefile is generated

A graph is refused a Makefile because two of its sources have one variable, or else because a test
would build something that has its name from the Makefile or from the program. Sources are looked
at in increasing order, so what is reported is the least source that comes too late for its
variable, with the least source that has it (`findClash_eq_some_iff`), or the least such test:
`render_eq_error_iff`. What is not refused has no two sources that make the same: `render_refuses`.
-/

namespace MakeDeps.Makefile

/-- The sources that have this variable. -/
def holders (sources : List String) (name : String) : Set String :=
  {source | source ∈ sources ∧ variableName source = name}

/-- The sources whose variable a smaller source has, too. -/
def latecomers (sources : List String) : Set String :=
  {source | source ∈ sources ∧
    ∃ smaller ∈ sources, smaller < source ∧ variableName smaller = variableName source}

/-- The tests that would build something with a name that is given away. -/
def misnamedTests (sources : List String) (c : Config) : Set String :=
  {test | test ∈ sources ∧ c.isTest test = true ∧
    testProgram test ∈ ["all", "bin", "tests", "clean", ".OBJ", c.program]}

/-- The sources are refused a Makefile for this reason. A test is the reason only if each source has
a variable of its own. -/
inductive Refused (sources : List String) (c : Config) : GenerateError → Prop where
  | nameClash {first second} :
    IsLeast (latecomers sources) second →
    IsLeast (holders sources (variableName second)) first →
    Refused sources c (.nameClash first second (variableName second))
  | reservedName {test} :
    latecomers sources = ∅ →
    IsLeast (misnamedTests sources c) test →
    Refused sources c (.reservedName test (testProgram test))

variable {g : Graph} {c : Config} {sources tests : List String} {source first second text : String}
  {e : GenerateError}

/-- In increasing order, the first text that passes a test is the least one that does. -/
lemma find?_eq_some_iff_isLeast {xs : List String} {p : String → Bool} {x : String}
    (h : xs.Pairwise (· ≤ ·)) : xs.find? p = some x ↔ IsLeast {y | y ∈ xs ∧ p y = true} x := by
  have hle : ∀ y, y = x ∨ x ≤ y ↔ x ≤ y := fun y => or_iff_right_of_imp ge_of_eq
  rw [Search.find?_eq_some_iff_of_pairwise h fun _ _ => le_antisymm]
  simp only [hle]
  constructor
  · rintro ⟨hx, hp, hfirst⟩
    exact ⟨⟨hx, hp⟩, fun y hy => hfirst y hy.1 hy.2⟩
  · rintro ⟨⟨hx, hp⟩, hleast⟩
    exact ⟨hx, hp, fun y hy hpy => hleast ⟨hy, hpy⟩⟩

section clashes

/-- The owner of the variable of a source is the least source that has this variable. -/
lemma isLeast_owner (h : sources.Pairwise (· ≤ ·)) (hsource : source ∈ sources) :
    IsLeast (holders sources (variableName source)) (owner sources source) := by
  have hsome : (sources.find? fun other => variableName other = variableName source).isSome :=
    List.find?_isSome.2 ⟨source, hsource, decide_eq_true rfl⟩
  obtain ⟨first, hfirst⟩ := Option.isSome_iff_exists.1 hsome
  have hleast := (find?_eq_some_iff_isLeast h).1 hfirst
  simp only [decide_eq_true_eq] at hleast
  rw [owner, hfirst]
  exact hleast

/-- The sources that do not own their variable are those that come too late for it. -/
lemma owner_ne_iff (h : sources.Pairwise (· ≤ ·)) (hsource : source ∈ sources) :
    owner sources source ≠ source ↔ source ∈ latecomers sources := by
  obtain ⟨⟨howner, hsame⟩, hleast⟩ := isLeast_owner h hsource
  constructor
  · intro hne
    exact ⟨hsource, _, howner, lt_of_le_of_ne (hleast ⟨hsource, rfl⟩) hne, hsame⟩
  · rintro ⟨-, smaller, hsmaller, hlt, hname⟩ heq
    have hle := hleast ⟨hsmaller, hname⟩
    rw [heq] at hle
    exact absurd hlt (not_lt_of_ge hle)

/-- The clash that is found is that of the least source that comes too late. -/
lemma findClash_eq_some_iff (h : sources.Pairwise (· ≤ ·)) :
    findClash [] sources = some (first, second) ↔
      IsLeast (latecomers sources) second ∧
        IsLeast (holders sources (variableName second)) first := by
  have hlate : {source | source ∈ sources ∧ decide (owner sources source ≠ source) = true} =
      latecomers sources := by
    ext source
    rw [Set.mem_ofPred_eq, decide_eq_true_eq]
    constructor
    · rintro ⟨hsource, hne⟩
      exact (owner_ne_iff h hsource).1 hne
    · intro hsource
      exact ⟨hsource.1, (owner_ne_iff h hsource.1).2 hsource⟩
  rw [owns_nil.findClash_eq, List.nil_append, Option.map_eq_some_iff]
  simp only [find?_eq_some_iff_isLeast h, hlate, Prod.mk.injEq]
  constructor
  · rintro ⟨source, hleast, rfl, rfl⟩
    exact ⟨hleast, isLeast_owner h hleast.1.1⟩
  · rintro ⟨hsecond, hfirst⟩
    exact ⟨second, hsecond, (isLeast_owner h hsecond.1.1).unique hfirst, rfl⟩

/-- Of two clashes, the one is found whose greater source is the smaller. -/
example : findClash [] ["B.c", "a-x.c", "a_x.c", "b.c"] = some ("a-x.c", "a_x.c") := by
  cbv

/-- No clash is found exactly if no source comes too late. -/
lemma findClash_eq_none_iff (h : sources.Pairwise (· ≤ ·)) :
    findClash [] sources = none ↔ latecomers sources = ∅ := by
  constructor
  · intro hnone
    apply Set.eq_empty_of_forall_notMem
    rintro source ⟨hsource, smaller, hsmaller, hlt, hsame⟩
    exact hlt.ne (eq_of_findClash hnone hsmaller hsource hsame)
  · intro hempty
    apply Option.eq_none_iff_forall_ne_some.2
    rintro ⟨first, second⟩ hsome
    have hsecond := ((findClash_eq_some_iff h).1 hsome).1.1
    rw [hempty] at hsecond
    exact hsecond

end clashes

/-- Tests are looked at in increasing order, too. -/
lemma find?_reserved (h : sources.Pairwise (· ≤ ·)) {test : String} :
    (sources.filter c.isTest).find? (fun test => testProgram test ∈ c.program :: reservedTargets) =
      some test ↔ IsLeast (misnamedTests sources c) test := by
  have hmisnamed : {test | test ∈ sources.filter c.isTest ∧
      decide (testProgram test ∈ c.program :: reservedTargets) = true} =
        misnamedTests sources c := by
    ext test
    simp [misnamedTests, reservedTargets, objectDirectory, and_assoc, or_comm, or_left_comm]
  rw [find?_eq_some_iff_isLeast (h.filter _), hmisnamed]

/-- The reasons for which sources in increasing order do not pass the check. -/
lemma check_eq_error_iff (h : sources.Pairwise (· ≤ ·)) :
    check sources (sources.filter c.isTest) c = .error e ↔ Refused sources c e := by
  unfold check
  cases hclash : findClash [] sources with
  | some clash =>
    obtain ⟨first, second⟩ := clash
    obtain ⟨hsecond, hfirst⟩ := (findClash_eq_some_iff h).1 hclash
    constructor
    · rintro ⟨⟩
      exact .nameClash hsecond hfirst
    · intro hrefused
      cases hrefused with
      | nameClash hsecond' hfirst' =>
        cases hsecond.unique hsecond'
        cases hfirst.unique hfirst'
        rfl
      | reservedName hempty _ => exact absurd hsecond.1 (hempty ▸ Set.notMem_empty second)
  | none =>
    have hempty := (findClash_eq_none_iff h).1 hclash
    cases hfind : (sources.filter c.isTest).find?
        fun test => testProgram test ∈ c.program :: reservedTargets with
    | some test =>
      have hleast := (find?_reserved h).1 hfind
      constructor
      · rintro ⟨⟩
        exact .reservedName hempty hleast
      · intro hrefused
        cases hrefused with
        | nameClash hsecond _ => exact absurd hsecond.1 (hempty ▸ Set.notMem_empty _)
        | reservedName _ hleast' =>
          cases hleast.unique hleast'
          rfl
    | none =>
      refine iff_of_false nofun ?_
      intro hrefused
      cases hrefused with
      | nameClash hsecond _ => exact absurd hsecond.1 (hempty ▸ Set.notMem_empty _)
      | reservedName _ hleast => cases hfind.symm.trans ((find?_reserved h).2 hleast)

/-- Rendering fails with a refusal, and with nothing else. -/
lemma render_eq_error_iff : render g c = .error e ↔ Refused (g.sources c.extension) c e := by
  have hsorted : (g.sources c.extension).Pairwise (· ≤ ·) := Text.pairwise_sorted _
  rw [← check_eq_error_iff hsorted, ← testSources, render]
  cases check (g.sources c.extension) (testSources g c) c with
  | error e => rw [Except.error.injEq, Except.error.injEq]
  | ok _ =>
    constructor
    · intro herror
      cases herror
    · intro herror
      cases herror

/-- A Makefile is refused exactly if two sources have one variable, or a test would build something
with the name of a target of every Makefile, of the directory for objects or of the program. The
first of these reasons goes before the second. It is reported with the least source that shares its
variable with a smaller one and with the least source that has this variable, the second with the
least such test. If the Makefile is not refused, then no two sources have the same object file, and
no two tests the same program. -/
theorem render_refuses (g : Graph) (c : Config) :
    ((∃ e, render g c = .error e) ↔
      (∃ source ∈ g.sources c.extension, ∃ other ∈ g.sources c.extension,
        source ≠ other ∧ variableName source = variableName other) ∨
      ∃ test ∈ g.sources c.extension, c.isTest test = true ∧
        testProgram test ∈ ["all", "bin", "tests", "clean", ".OBJ", c.program]) ∧
    (∀ e, render g c = .error e ↔ Refused (g.sources c.extension) c e) ∧
    ∀ text, render g c = .ok text →
      (∀ source ∈ g.sources c.extension, ∀ other ∈ g.sources c.extension,
        objectFile source = objectFile other → source = other) ∧
      ∀ test ∈ testSources g c, ∀ other ∈ testSources g c,
        testProgram test = testProgram other → test = other := by
  have hunique : ∀ text, render g c = .ok text → ∀ source ∈ g.sources c.extension,
      ∀ other ∈ g.sources c.extension, variableName source = variableName other →
        source = other := by
    intro text hrender source hsource other hother
    exact eq_of_findClash (findClash_of_check (of_render hrender).1) hsource hother
  refine ⟨⟨?_, ?_⟩, fun e => render_eq_error_iff, ?_⟩
  · rintro ⟨e, herror⟩
    cases render_eq_error_iff.1 herror with
    | nameClash hsecond _ =>
      obtain ⟨hsource, smaller, hsmaller, hlt, hsame⟩ := hsecond.1
      exact .inl ⟨smaller, hsmaller, _, hsource, hlt.ne, hsame⟩
    | reservedName _ hleast => exact .inr ⟨_, hleast.1⟩
  · intro hreason
    cases hrender : render g c with
    | error e => exact ⟨e, rfl⟩
    | ok text =>
      rcases hreason with ⟨source, hsource, other, hother, hne, hsame⟩ | ⟨test, htest, his, hmem⟩
      · exact absurd (hunique text hrender source hsource other hother hsame) hne
      · have hnot := testProgram_not_mem (of_render hrender).1 (List.mem_filter.2 ⟨htest, his⟩)
        simp [reservedTargets, objectDirectory] at hnot hmem
        tauto
  · intro text hrender
    constructor
    · intro source hsource other hother heq
      exact hunique text hrender source hsource other hother (variableName_of_objectFile heq)
    · intro test htest other hother heq
      exact hunique text hrender test (mem_sources_of_mem_testSources htest) other
        (mem_sources_of_mem_testSources hother) (variableName_of_testProgram heq)

end MakeDeps.Makefile
