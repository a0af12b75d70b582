import Mathlib
import MakeDeps.Graph.Basic
import MakeDeps.Proofs.Resolver.Recursion

/-!
# The graph of a project

A resolution that succeeds lists the files that the sources of the project reach through includes,
each with what it includes: `resolve_graph`. In other words, the files of the graph are the least
set that holds the sources and whatever is included in it.
-/

namespace MakeDeps.Resolver
open Search

variable {r : Resolver} {fs : FileSystem} {g : Graph}

/-- The set holds every source of the project and whatever a file in it includes. -/
def Encloses (r : Resolver) (fs : FileSystem) (files : Set String) : Prop :=
  (∀ source ∈ (r.listing fs).sources, source ∈ files) ∧
  ∀ file ∈ files, ∀ other, r.Includes fs file other → other ∈ files

/-- A resolution that succeeds has visited all sources, and the walk has found all of them. -/
lemma exists_visits_of_resolve (h : (r.resolve fs).result = .ok g) :
    ∃ m, r.VisitsSources fs m none ∧ g = ⟨m.finished, m.notes.libraries⟩ ∧
      (r.listing fs).failure = none := by
  obtain ⟨m, failure, v⟩ := r.exists_visitsSources fs
  rw [v.resolve_eq] at h
  unfold conclude at h
  cases failure with
  | some e => simp at h
  | none =>
    cases hwalk : (r.listing fs).failure with
    | some e => simp [hwalk] at h
    | none =>
      simp only [hwalk, Option.or_none, Except.ok.injEq] at h
      exact ⟨m, v, h.symm, rfl⟩

/-- No file of a graph that has been resolved is listed twice. -/
lemma nodup_files (h : (r.resolve fs).result = .ok g) : g.files.Nodup := by
  obtain ⟨m, v, rfl, -⟩ := exists_visits_of_resolve h
  exact (v.coherent (Memory.coherent_start _)).nodup

/-- What a file depends on is what is listed for it. -/
lemma dependenciesOf_eq (h : (r.resolve fs).result = .ok g) {file : String}
    {includes : List String} (hmem : (file, includes) ∈ g.dependencies) :
    g.dependenciesOf file = includes := by
  have hlookup := (FileSystem.lookup_eq_some_iff_mem (nodup_files h)).2 hmem
  simp [Graph.dependenciesOf, hlookup]

/-- The dependencies of a listed file are read off its text. -/
lemma located_of_mem_files (h : (r.resolve fs).result = .ok g) {file : String}
    (hfile : file ∈ g.files) :
    ∃ located, r.Located fs file located ∧ g.dependenciesOf file = located.eraseDups := by
  obtain ⟨⟨file, includes⟩, hmem, rfl⟩ := List.mem_map.1 hfile
  rw [dependenciesOf_eq h hmem]
  obtain ⟨m, v, rfl, -⟩ := exists_visits_of_resolve h
  rcases v.scan_of_finished _ hmem with hmem | hscan
  · simp [Memory.start] at hmem
  · exact scan_includes_eq_ok_iff.1 hscan

/-- A file of a graph that has been resolved depends on what it includes. -/
lemma mem_dependenciesOf_iff (h : (r.resolve fs).result = .ok g) {file other : String}
    (hfile : file ∈ g.files) : other ∈ g.dependenciesOf file ↔ r.Includes fs file other := by
  obtain ⟨located, hlocated, heq⟩ := located_of_mem_files h hfile
  rw [heq, List.mem_eraseDups, hlocated.includes_iff]

/-- What a file depends on is a file of the graph. -/
lemma mem_files_of_mem_dependenciesOf (h : (r.resolve fs).result = .ok g) {file other : String}
    (hfile : file ∈ g.files) (hother : other ∈ g.dependenciesOf file) : other ∈ g.files := by
  obtain ⟨⟨file, includes⟩, hmem, rfl⟩ := List.mem_map.1 hfile
  rw [dependenciesOf_eq h hmem] at hother
  obtain ⟨m, v, rfl, -⟩ := exists_visits_of_resolve h
  obtain ⟨-, hkeys, hclosed⟩ := v.settled rfl
  have hseen : other ∈ m.seen := by
    rcases hclosed _ hmem with hmem | hclosed
    · simp [Memory.start] at hmem
    · exact hclosed other hother
  rcases hkeys other hseen with hstart | hkey
  · simp [Memory.start] at hstart
  · exact hkey

/-- All sources are files of the graph. -/
lemma mem_files_of_source (h : (r.resolve fs).result = .ok g) {source : String}
    (hsource : source ∈ (r.listing fs).sources) : source ∈ g.files := by
  obtain ⟨m, v, rfl, -⟩ := exists_visits_of_resolve h
  obtain ⟨hroots, hkeys, -⟩ := v.settled rfl
  rcases hkeys source (hroots source hsource) with hstart | hkey
  · simp [Memory.start] at hstart
  · exact hkey

/-- The files of the graph hold every source, and whatever a file among them includes. -/
lemma encloses_files (h : (r.resolve fs).result = .ok g) : r.Encloses fs {f | f ∈ g.files} := by
  refine ⟨fun source hsource => mem_files_of_source h hsource, ?_⟩
  intro file hfile other hincludes
  exact mem_files_of_mem_dependenciesOf h hfile ((mem_dependenciesOf_iff h hfile).2 hincludes)

/-- The search goes from a file to what it includes. -/
lemma includes_of_edge {file other : String}
    (h : Edge (successors (r.includesOf fs)) file other) : r.Includes fs file other := by
  unfold Edge successors at h
  cases hscan : r.includesOf fs file with
  | error e => simp [hscan] at h
  | ok found =>
    obtain ⟨located, hlocated, rfl⟩ := scan_includes_eq_ok_iff.1 hscan
    rw [hscan] at h
    exact hlocated.includes_iff.2 (List.mem_eraseDups.1 h)

/-- Every file of the graph is reached from a source. -/
lemma exists_source_of_mem_files (h : (r.resolve fs).result = .ok g) {file : String}
    (hfile : file ∈ g.files) : ∃ source ∈ (r.listing fs).sources,
      Relation.ReflTransGen (r.Includes fs) source file := by
  obtain ⟨m, v, rfl, -⟩ := exists_visits_of_resolve h
  have hseen := (v.coherent (Memory.coherent_start _)).seen file hfile
  rcases v.reachable file hseen with hstart | ⟨source, hsource, path⟩
  · simp [Memory.start] at hstart
  · exact ⟨source, hsource, Relation.ReflTransGen.mono (fun _ _ => includes_of_edge) _ _ path⟩

/-- From a listed file on, the dependencies in the graph lead where the includes do. -/
lemma reaches_iff (h : (r.resolve fs).result = .ok g) {source file : String}
    (hsource : source ∈ g.files) :
    Reaches g.dependenciesOf source file ↔ Relation.ReflTransGen (r.Includes fs) source file := by
  have henc := encloses_files h
  -- both chains stay among the listed files, where a dependency is an include
  constructor
  · intro path
    suffices hpath : file ∈ g.files ∧ Relation.ReflTransGen (r.Includes fs) source file from hpath.2
    induction path with
    | refl => exact ⟨hsource, .refl⟩
    | tail _ edge ih =>
      obtain ⟨hfile, path⟩ := ih
      have hincludes := (mem_dependenciesOf_iff h hfile).1 edge
      exact ⟨henc.2 _ hfile _ hincludes, path.tail hincludes⟩
  · intro path
    suffices hpath : file ∈ g.files ∧ Reaches g.dependenciesOf source file from hpath.2
    induction path with
    | refl => exact ⟨hsource, .refl⟩
    | tail _ hincludes ih =>
      obtain ⟨hfile, path⟩ := ih
      exact ⟨henc.2 _ hfile _ hincludes,
        path.tail ((mem_dependenciesOf_iff h hfile).2 hincludes)⟩

/-- A file that is included has a name. -/
lemma Includes.ne_empty {file other : String} (h : r.Includes fs file other) : other ≠ "" := by
  obtain ⟨content, target, -, -, hlocate⟩ := h
  obtain ⟨names, rfl, hstands⟩ := stands_of_locate hlocate
  intro hempty
  unfold fileName Path.text at hempty
  split at hempty
  · exact absurd hempty (by decide)
  · next hhere =>
    have hlist := congrArg String.toList hempty
    cases names with
    | nil => exact hhere rfl
    | cons name rest =>
      cases rest with
      | nil =>
        -- a single name is the name of something that stands in the root
        obtain ⟨e, hfind, -⟩ := hstands
        have hname : name = "" := by simpa [Anchor.text] using hempty
        exact (FileSystem.validName_of_find? hfind).1 hname
      | cons next rest => simp [Anchor.text] at hlist

/-- Sources have the extension. -/
lemma hasExtension_of_mem_sources {source : String} (h : source ∈ (r.listing fs).sources) :
    Path.hasExtension source r.extension := by
  unfold listing at h
  split at h
  · cases h
  · exact (List.mem_filter.1 h).2

/-- The files of the graph have names. -/
lemma ne_empty_of_mem_files (h : (r.resolve fs).result = .ok g) {file : String}
    (hfile : file ∈ g.files) : file ≠ "" := by
  obtain ⟨source, hsource, path⟩ := exists_source_of_mem_files h hfile
  rcases path.cases_tail with rfl | ⟨before, -, hincludes⟩
  · rintro rfl
    have hextension := hasExtension_of_mem_sources hsource
    cases hextension
  · exact hincludes.ne_empty

/-- Nothing is left twice where repetitions are erased. -/
lemma nodup_eraseDups {α : Type} [BEq α] [LawfulBEq α] : ∀ xs : List α, xs.eraseDups.Nodup
  | [] => by simp
  | x :: xs => by
    have hlt : (xs.filter fun y => !y == x).length < (x :: xs).length :=
      Nat.lt_succ_of_le (List.length_filter_le _ xs)
    rw [List.eraseDups_cons]
    exact List.nodup_cons.2 ⟨by simp [List.mem_eraseDups], nodup_eraseDups _⟩
  termination_by xs => xs.length
  decreasing_by exact hlt

/-- Whatever encloses the project holds what is reached from a source. -/
lemma Encloses.mem_of_reaches {files : Set String} (he : r.Encloses fs files)
    {source file : String} (hsource : source ∈ (r.listing fs).sources)
    (path : Relation.ReflTransGen (r.Includes fs) source file) : file ∈ files := by
  induction path with
  | refl => exact he.1 source hsource
  | tail _ step ih => exact he.2 _ ih _ step

/-- The graph of a resolution that succeeds. Its files are the least set that holds the sources of
the project, all of which the walk has found, and whatever is included in it; these are the files
that a source reaches. Each is listed once, with the files that its include lines lead to, each of
them where it comes first; headers of the system play no part in that, and all of these files are
listed too. -/
theorem resolve_graph (h : (r.resolve fs).result = .ok g) :
    (r.listing fs).complete = .ok (r.listing fs).sources ∧
    IsLeast {files | r.Encloses fs files} {file | file ∈ g.files} ∧
    (∀ file, file ∈ g.files ↔ ∃ source ∈ (r.listing fs).sources,
      Relation.ReflTransGen (r.Includes fs) source file) ∧
    g.files.Nodup ∧
    ∀ file ∈ g.files,
      (∃ located, r.Located fs file located ∧ g.dependenciesOf file = located.eraseDups) ∧
      (g.dependenciesOf file).Nodup ∧
      (∀ other, other ∈ g.dependenciesOf file ↔ r.Includes fs file other) ∧
      ∀ other ∈ g.dependenciesOf file, other ∈ g.files := by
  have henc := encloses_files h
  refine ⟨?_, ⟨henc, ?_⟩, ?_, nodup_files h, ?_⟩
  · obtain ⟨-, -, -, hwalk⟩ := exists_visits_of_resolve h
    rw [Listing.complete, hwalk]
  · -- any other set that encloses the project holds what a source reaches
    intro files hfiles file hfile
    obtain ⟨source, hsource, path⟩ := exists_source_of_mem_files h hfile
    exact hfiles.mem_of_reaches hsource path
  · intro file
    constructor
    · exact exists_source_of_mem_files h
    · rintro ⟨source, hsource, path⟩
      exact henc.mem_of_reaches hsource path
  · intro file hfile
    refine ⟨located_of_mem_files h hfile, ?_, fun _ => mem_dependenciesOf_iff h hfile, ?_⟩
    · obtain ⟨located, -, heq⟩ := located_of_mem_files h hfile
      rw [heq]
      exact nodup_eraseDups located
    · exact fun other => mem_files_of_mem_dependenciesOf h hfile

/-- A project in which files include each other and themselves. -/
def cyclicTree : FileSystem where
  entries := [
    (["p"], .directory),
    (["p", "a.c"], .file (Text.Utf8.encode "#include \"h\"\n#include <math.h>".toList)),
    (["p", "h"], .file (Text.Utf8.encode "#include \"../p/a.c\"\n#include \"h\"".toList)),
    (["p", "t.c"], .file (Text.Utf8.encode "#include \"a.c\"".toList)) ]
  unique := by decide
  valid := by decide
  rooted := by
    simp only [List.forall_mem_cons]
    refine ⟨⟨[], "p", ?_⟩, ⟨["p"], "a.c", ?_⟩, ⟨["p"], "h", ?_⟩, ⟨["p"], "t.c", ?_⟩, by simp⟩
    all_goals exact ⟨rfl, by decide, by simp⟩

/-- Room for a few hundred calls within one another. -/
def roomy : Nesting := ⟨900, 900⟩

/-- The resolver for the files that include each other. -/
def cyclic : Resolver := ⟨["p"], "c", .standard, roomy⟩

/-- The graph of the files that include each other. -/
def cyclicGraph : Graph where
  dependencies := [("h", ["a.c", "h"]), ("a.c", ["h"]), ("t.c", ["a.c"])]
  libraries := ["m"]

set_option maxRecDepth 4000 in
/-- The files that include each other have this graph. -/
lemma resolve_cyclic : (cyclic.resolve cyclicTree).result = .ok cyclicGraph := by
  cbv

/-- The cyclic tree is resolved to its graph, which has the least set of files. -/
theorem resolve_graph_cyclic :
    (cyclic.resolve cyclicTree).result = .ok cyclicGraph ∧
    IsLeast {files | cyclic.Encloses cyclicTree files} {file | file ∈ ["h", "a.c", "t.c"]} :=
  ⟨resolve_cyclic, (resolve_graph resolve_cyclic).2.1⟩

end MakeDeps.Resolver
