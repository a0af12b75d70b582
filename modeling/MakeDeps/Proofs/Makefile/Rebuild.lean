import MakeDeps.Proofs.Makefile.Values
import MakeDeps.Proofs.Resolver.Graph

/-!
# What is built again after a change

The Makefile of a project that has been resolved builds a source again when, and only when, a file
has changed that the source reaches through includes: `render_rebuild`. It puts together what is
known of the scan, the graph, the closure and the text of the Makefile.
-/

namespace MakeDeps.Makefile
open Resolver

variable {r : Resolver} {fs : FileSystem} {g : Graph} {c : Config} {text : String}

/-- What is mentioned in a graph that has been resolved is one of its files. -/
lemma mem_files_of_mem_mentioned (h : (r.resolve fs).result = .ok g) {file : String}
    (hfile : file ∈ g.mentioned) : file ∈ g.files := by
  obtain ⟨⟨key, includes⟩, hmem, hfile⟩ := List.mem_flatMap.1 hfile
  have hkey : key ∈ g.files := List.mem_map.2 ⟨_, hmem, rfl⟩
  rcases List.mem_cons.1 hfile with rfl | hfile
  · exact hkey
  · apply mem_files_of_mem_dependenciesOf h hkey
    rw [dependenciesOf_eq h hmem]
    exact hfile

/-- Every reference to the variable of a source is to one that is assigned. -/
lemma exists_assignment (hreadable : Readable g c) {rule : Rule}
    (hrule : rule ∈ rules (readings (print (lines g c)))) {name : String}
    (hname : name ∈ rule.references) (hdeps : "_DEPS".toList <:+ name.toList) :
    ∃ source ∈ g.sources c.extension, name = variableName source := by
  have hcommon := not_mem_commonVariables hdeps
  rcases isCommon_or_eq_sourceRule hreadable hrule with hrule | ⟨source, hsource, rfl⟩
  · exact absurd (hrule.references name hname) hcommon
  · rcases eq_or_mem_commonVariables (hreadable.isPlain hsource) hname with hname | hname
    · exact ⟨source, hsource, hname⟩
    · exact absurd hname hcommon

/-- What the reference to a variable adds to the prerequisites, up to the first bar, whether that
bar stands in the rule itself or in a value. What comes behind it only needs to exist. -/
def triggersThrough (env : Environment) (name : String) : List String → List String
  | [] => []
  | item :: rest =>
    let text := expand env item.toList
    let own := if item = reference name then Text.words (text.takeWhile (· != '|')) else []
    own ++ if '|' ∈ text then [] else triggersThrough env name rest

/-- The files that a prerequisite stands for: a plain one that is no target for itself. Any other, a
pattern or something that is built, stands for what it means to whoever reads the rule. -/
def filesOf (meaning : String → Set String) (targets : List String) (word : String) : Set String :=
  if IsPlain word ∧ word ∉ targets then {word} else meaning word

/-- Does a change of the files make the rule build again by way of the variable? -/
def OutdatedThrough (meaning : String → Set String) (targets : List String) (env : Environment)
    (name : String) (rule : Rule) (changed : Set String) : Prop :=
  ∃ word ∈ triggersThrough env name rule.prerequisites,
    ∃ file ∈ filesOf meaning targets word, file ∈ changed

/-- Where the first prerequisite is the reference, and nothing is a bar, all words of the value
count. -/
lemma triggersThrough_reference {env : Environment} {name : String} {rest : List String}
    (hname : IsPlain name) (hbar : '|' ∉ env name) (hrest : reference name ∉ rest) :
    triggersThrough env name (reference name :: rest) = Text.words (env name) := by
  have hnone : ∀ items : List String, reference name ∉ items →
      triggersThrough env name items = [] := by
    intro items hitems
    induction items with
    | nil => rfl
    | cons item items ih =>
      obtain ⟨hitem, hitems⟩ := not_or.1 (mt List.mem_cons.2 hitems)
      simp [triggersThrough, Ne.symm hitem, ih hitems]
  have htake : (env name).takeWhile (· != '|') = env name := by
    rw [List.takeWhile_eq_self_iff]
    exact fun c hc => bne_iff_ne.2 fun heq => hbar (heq ▸ hc)
  rw [triggersThrough, expand_reference_self hname, htake, hnone rest hrest]
  simp [hbar]

/-- Through a variable whose value has plain words that are no targets, a rule is outdated by a
change of these. -/
lemma outdatedThrough_iff {meaning : String → Set String} {targets : List String}
    {env : Environment} {name : String} {rule : Rule} {words : List String} {changed : Set String}
    (htriggers : triggersThrough env name rule.prerequisites = words)
    (hwords : ∀ word ∈ words, IsPlain word ∧ word ∉ targets) :
    OutdatedThrough meaning targets env name rule changed ↔ ∃ file ∈ words, file ∈ changed := by
  unfold OutdatedThrough
  rw [htriggers]
  constructor
  · rintro ⟨word, hword, file, hfile, hchanged⟩
    rw [filesOf, if_pos (hwords word hword), Set.mem_singleton_iff] at hfile
    exact ⟨word, hword, hfile ▸ hchanged⟩
  · rintro ⟨word, hword, hchanged⟩
    refine ⟨word, hword, word, ?_, hchanged⟩
    rw [filesOf, if_pos (hwords word hword)]
    exact Set.mem_singleton word

/-- The rule of a source has the reference to the variable once among its prerequisites. -/
lemma exists_prerequisites_once (c : Config) (source : String) :
    ∃ rest, (sourceRule c source).prerequisites = reference (variableName source) :: rest ∧
      reference (variableName source) ∉ rest := by
  have hne : ∀ item ∈ ["|", objectDirectoryRef, testedObjects], dependenciesRef source ≠ item := by
    have href : ∀ item ∈ ["|", objectDirectoryRef, testedObjects],
        ∀ name ∈ references item.toList, name ∈ commonVariables := by decide
    have hnone : references "|".toList = [] := rfl
    intro item hitem heq
    have hmem := references_dependenciesRef source
    rw [heq] at hmem
    have hcommon := href item hitem (variableName source) (hmem ▸ List.mem_singleton_self _)
    exact variableName_not_mem_commonVariables source hcommon
  simp only [List.forall_mem_cons] at hne
  obtain ⟨hbar, hdirectory, htested, -⟩ := hne
  unfold sourceRule
  split
  · exact ⟨_, rfl, fun hmem => htested (List.mem_singleton.1 hmem)⟩
  · refine ⟨_, rfl, fun hmem => ?_⟩
    rcases List.mem_cons.1 hmem with heq | hmem
    · exact hbar heq
    · exact hdirectory (List.mem_singleton.1 hmem)

/-- Where the rule of a source begins, a change outdates it through its variable if it is one of the
files of the closure. -/
lemma outdatedThrough_sourceRule (h : Readable g c) (hne : ∀ file ∈ g.mentioned, file ≠ "")
    {targets : List String} (hinputs : ∀ file ∈ g.mentioned, file ∉ targets) {source : String}
    (hsource : source ∈ g.sources c.extension) {env here : Environment}
    (hrule : (here, sourceRule c source) ∈ rulesIn env (readings (print (lines g c))))
    (hassigned : (readings (print (lines g c))).filter (Reading.assigns (variableName source)) =
      [.assignment (variableName source) (g.closure source)]) (meaning : String → Set String)
    (changed : Set String) :
    OutdatedThrough meaning targets here (variableName source) (sourceRule c source) changed ↔
      ∃ file ∈ g.closure source, file ∈ changed := by
  have hplain : ∀ file ∈ g.closure source, IsPlain file := fun file hfile =>
    h.files file (mem_mentioned_of_mem_closure (mem_sources.1 hsource).1 hfile)
  have hword : ∀ file ∈ g.closure source, Text.IsWord file := fun file hfile =>
    (hplain file hfile).isWord
      (hne file (mem_mentioned_of_mem_closure (mem_sources.1 hsource).1 hfile))
  have hdollar : '$' ∉ (Line.words (g.closure source)).toList :=
    Line.not_mem_words (by decide) fun file hfile => (hplain file hfile).not_mem_dollar
  have hbar : '|' ∉ (Line.words (g.closure source)).toList :=
    Line.not_mem_words (by decide) fun file hfile => (hplain file hfile).not_mem (by decide)
  have hcommon : ∀ name ∈ commonVariables, variableName source ≠ name := fun name hname heq =>
    variableName_not_mem_commonVariables source (heq ▸ hname)
  have hvalue : here (variableName source) = (Line.words (g.closure source)).toList :=
    value_of_mem_rulesIn_lines h hrule (hcommon _ (by decide)) (hcommon _ (by decide)) hassigned
      hdollar
  obtain ⟨rest, hprerequisites, hrest⟩ := exists_prerequisites_once c source
  have htriggers : ∀ file ∈ g.closure source, IsPlain file ∧ file ∉ targets := fun file hfile =>
    ⟨hplain file hfile, hinputs file (mem_mentioned_of_mem_closure (mem_sources.1 hsource).1 hfile)⟩
  apply outdatedThrough_iff _ htriggers
  rw [hprerequisites, triggersThrough_reference (isPlain_variableName source) (hvalue ▸ hbar) hrest,
    hvalue, Text.words_joined, Text.allWords_eq_self hword]

/-- The one rule that has a property has it with the values where it begins. -/
lemma exists_filter_rulesIn (env : Environment) {said : List Reading} {p : Rule → Bool}
    {rule : Rule}
    (h : (rules said).filter p = [rule]) :
    ∃ here, (rulesIn env said).filter (fun made => p made.2) = [(here, rule)] := by
  rw [← map_snd_rulesIn env, List.filter_map] at h
  obtain ⟨⟨here, made⟩, hfilter, rfl⟩ := List.map_eq_singleton_iff.1 h
  exact ⟨here, hfilter⟩

/-- A configuration for the cyclic project. -/
def cyclicConfig : Config where
  compiler := "gcc -pipe"
  extension := "c"
  program := "app"
  standard := "c99"
  optimization := "O0"
  tests := ["t"]
  entryPoint := "a"

/-- The cyclic project has a Makefile. -/
lemma render_cyclic :
    render cyclicGraph cyclicConfig = .ok (print (lines cyclicGraph cyclicConfig)) := by
  have hcheck : check (cyclicGraph.sources cyclicConfig.extension)
      (testSources cyclicGraph cyclicConfig) cyclicConfig = .ok () := by
    cbv
  rw [render, hcheck]

/-- Nothing in the cyclic project gets in the way of reading its Makefile. -/
lemma readable_cyclic : Readable cyclicGraph cyclicConfig := by
  obtain ⟨hsources, htests⟩ := starts_of_files (g := cyclicGraph) (c := cyclicConfig) (by decide)
  exact ⟨by decide, hsources, htests, by decide, by decide, by decide, by decide,
    by decide, by decide, by decide⟩

/-- No file of the cyclic project is a target. -/
lemma not_mem_targetsIn_cyclic (env : Environment) : ∀ file ∈ cyclicGraph.files,
    file ∉ targetsIn env (readings (print (lines cyclicGraph cyclicConfig))) := by
  have htests : testSources cyclicGraph cyclicConfig = ["t.c"] := by
    cbv
  have hprogram : programSources cyclicGraph cyclicConfig = ["a.c"] := by
    cbv
  rw [targetsIn_lines readable_cyclic, htests, hprogram]
  decide

/-- A source that includes a file with the name of the bar, which includes another one. -/
def barTree : FileSystem where
  entries := [
    (["main.c"], .file (Text.Utf8.encode "#include \"|\"".toList)),
    (["|"], .file (Text.Utf8.encode "#include \"u.h\"".toList)),
    (["u.h"], .file []) ]
  unique := by decide
  valid := by decide
  rooted := by
    simp only [List.forall_mem_cons]
    refine ⟨⟨[], "main.c", ?_⟩, ⟨[], "|", ?_⟩, ⟨[], "u.h", ?_⟩, by simp⟩
    all_goals exact ⟨rfl, by decide, .inl rfl⟩

/-- The resolver for that source. -/
def barResolver : Resolver := ⟨[], "c", .standard, roomy⟩

/-- The graph of that source. -/
def barGraph : Graph where
  dependencies := [("u.h", []), ("|", ["u.h"]), ("main.c", ["|"])]
  libraries := []

/-- That source has this graph. -/
lemma resolve_barTree : (barResolver.resolve barTree).result = .ok barGraph := by
  cbv

/-- That source has a Makefile. -/
lemma render_barGraph :
    render barGraph cyclicConfig = .ok (print (lines barGraph cyclicConfig)) := by
  have hcheck : check (barGraph.sources cyclicConfig.extension)
      (testSources barGraph cyclicConfig) cyclicConfig = .ok () := by
    cbv
  rw [render, hcheck]

end MakeDeps.Makefile
