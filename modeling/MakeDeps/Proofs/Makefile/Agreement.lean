import MakeDeps.Proofs.Makefile.Rebuild
import MakeDeps.Proofs.Search.Roots

/-!
# Graphs with the same Makefile

A Makefile depends on the libraries of its graph, on which files are sources, and on what the files
include that the sources reach. It depends neither on the order in which the graph lists its files
nor on what else is listed: `render_eq_of_agrees`.
-/

namespace MakeDeps

namespace Graph
open Search

variable {g g' : Graph} {extension source file : String}

/-- The graphs need the same libraries and list the same sources, and a file that a source reaches
in the first graph includes the same in both. -/
structure Agrees (g g' : Graph) (extension : String) : Prop where
  libraries : g.libraries = g'.libraries
  mem_sources_iff : ∀ file, file ∈ g.sources extension ↔ file ∈ g'.sources extension
  dependenciesOf : ∀ source ∈ g.sources extension, ∀ file, Reaches g.dependenciesOf source file →
    g.dependenciesOf file = g'.dependenciesOf file

/-- A closure depends on nothing but what the files in it include. -/
lemma closure_congr (h : ∀ other, Reaches g.dependenciesOf file other →
    g.dependenciesOf other = g'.dependenciesOf other) : g.closure file = g'.closure file := by
  have hmem : ∀ other ∈ g.closure file, g.dependenciesOf other = g'.dependenciesOf other :=
    fun other hother => h other (mem_closure_iff.1 hother)
  exact (g'.traversal_iff_closure file _).1 ((g.closure_traversal file).congr hmem)

namespace Agrees

/-- There is one list of the same sources in increasing order. -/
lemma sources (h : g.Agrees g' extension) (hkeys : g.files.Nodup) (hkeys' : g'.files.Nodup) :
    g.sources extension = g'.sources extension :=
  Text.eq_of_pairwise_le (Text.pairwise_sorted _) (Text.pairwise_sorted _)
    (Makefile.nodup_sources hkeys) (Makefile.nodup_sources hkeys') h.mem_sources_iff

/-- Sources have the same closure in graphs that agree. -/
lemma closure (h : g.Agrees g' extension) (hsource : source ∈ g.sources extension) :
    g.closure source = g'.closure source :=
  closure_congr (h.dependenciesOf source hsource)

end Agrees

end Graph

namespace Makefile
open Resolver

variable {g g' : Graph} {c : Config}

/-- The variables of sources are the same if their closures are. -/
lemma variableLines_congr {sources : List String}
    (h : ∀ source ∈ sources, g.closure source = g'.closure source) :
    variableLines g sources = variableLines g' sources := by
  have hassign : ∀ source ∈ sources, Line.assign (variableName source) (g.closure source) =
      .assign (variableName source) (g'.closure source) := by
    intro source hsource
    rw [h source hsource]
  rw [variableLines, variableLines, List.map_congr_left hassign]

/-- Graphs that agree have the same Makefile, or are refused one for the same reason. Neither the
order of their files matters nor a file that is no source, unless a source reaches it. -/
theorem render_eq_of_agrees (hkeys : g.files.Nodup) (hkeys' : g'.files.Nodup)
    (h : g.Agrees g' c.extension) : render g c = render g' c := by
  have hsources := h.sources hkeys hkeys'
  have htests : testSources g c = testSources g' c := by
    rw [testSources, testSources, hsources]
  have hprogram : programSources g c = programSources g' c := by
    rw [programSources, programSources, hsources]
  have hvariables : variableLines g (g.sources c.extension) =
      variableLines g' (g'.sources c.extension) := by
    rw [← hsources]
    exact variableLines_congr fun source => h.closure
  have htoolchain : toolchainLines g c = toolchainLines g' c := by
    rw [toolchainLines, toolchainLines, h.libraries]
  have hlines : lines g c = lines g' c := by
    rw [lines, lines, htoolchain, hvariables, hprogram, htests]
  rw [render, render, hsources, htests, hlines]

/-- The cyclic graph, completed in another order, with a header that no source reaches. -/
def reorderedGraph : Graph where
  dependencies := [("t.c", ["a.c"]), ("old.h", ["h", "gone.h"]), ("a.c", ["h"]),
    ("h", ["a.c", "h"])]
  libraries := ["m"]

/-- The graph with its files in another order agrees with it. -/
lemma agrees_reordered : cyclicGraph.Agrees reorderedGraph "c" where
  libraries := rfl
  mem_sources_iff := by
    have hsources : cyclicGraph.sources "c" = reorderedGraph.sources "c" := by cbv
    intro file
    rw [hsources]
  dependenciesOf := by
    intro source hsource file path
    have hfile := mem_mentioned_of_mem_closure (mem_sources.1 hsource).1
      (Graph.mem_closure_iff.2 path)
    have hagree : ∀ file ∈ cyclicGraph.mentioned,
        cyclicGraph.dependenciesOf file = reorderedGraph.dependenciesOf file := by decide
    exact hagree file hfile

/-- The Makefile of the cyclic project does not change with the order of its files. -/
theorem render_eq_of_agrees_reordered :
    cyclicGraph.files.Nodup ∧ reorderedGraph.files.Nodup ∧
    cyclicGraph.Agrees reorderedGraph cyclicConfig.extension ∧
    render cyclicGraph cyclicConfig = render reorderedGraph cyclicConfig := by
  have hkeys : cyclicGraph.files.Nodup := by decide
  have hkeys' : reorderedGraph.files.Nodup := by decide
  exact ⟨hkeys, hkeys', agrees_reordered, render_eq_of_agrees hkeys hkeys' agrees_reordered⟩

end Makefile

end MakeDeps
