import MakeDeps.Proofs.Makefile.Rebuild
import MakeDeps.Proofs.Resolver.Libraries

/-!
# Libraries to link with

The libraries that the files of a project ask for end up as flags in the Makefile, in the order in
which the files ask for them. `linkedWith_render` reads the flags off the text of the Makefile, and
`resolve_libraries` says which libraries these are.
-/

namespace MakeDeps.Makefile
open Resolver

/-- The linker flags that the text of a Makefile gives, on the first line that assigns them. The
words are those of the whole line, while for a reading of the line a hash begins a comment:
`Reading.ofLine_assignment`. -/
def linkedWith? (text : String) : Option (List String) :=
  (text.toList.splitOn '\n').findSome? fun line =>
    match assignment? line with
    | some a => if a.name = "LFLAGS" ∧ a.operator = .assign then some (Text.words a.value) else none
    | none => none

/-- The flags that link with the libraries. -/
def libraryFlags (libraries : List String) : List String :=
  libraries.map ("-l" ++ ·)

section flags

variable {g : Graph} {c : Config} {text : String}

/-- The words of the value are the flags. -/
lemma words_libraryFlags {libraries : List String}
    (h : ∀ library ∈ libraries, ∀ ch ∈ library.toList, Text.isBlank ch = false) :
    Text.words (Text.trimRight (' ' :: (Line.words (libraryFlags libraries)).toList)) =
      libraryFlags libraries := by
  have hwords : ∀ flag ∈ libraryFlags libraries, Text.IsWord flag := by
    intro flag hflag
    obtain ⟨library, hlibrary, rfl⟩ := List.mem_map.1 hflag
    have hlist : ("-l" ++ library).toList = '-' :: 'l' :: library.toList := by
      rw [String.toList_append]
      rfl
    constructor
    · intro hempty
      rw [hempty] at hlist
      cases hlist
    · rw [hlist]
      simp only [List.forall_mem_cons]
      exact ⟨by decide, by decide, h library hlibrary⟩
  rw [Text.words_trimRight, Text.words_blank_cons (by decide), Text.words_joined,
    Text.allWords_eq_self hwords]

/-- A rendered Makefile links with the libraries of its graph, in their order. -/
lemma linkedWith_render (hrender : render g c = .ok text)
    (hblank : ∀ library ∈ g.libraries, ∀ ch ∈ library.toList, Text.isBlank ch = false)
    (hcompiler : IsSingleLine c.compiler) (hstandard : IsSingleLine c.standard)
    (hoptimization : IsSingleLine c.optimization) :
    linkedWith? text = some (libraryFlags g.libraries) := by
  obtain ⟨-, rfl⟩ := of_render hrender
  have hlibraries : ∀ library ∈ g.libraries, IsSingleLine library := by
    intro library hlibrary hmem
    exact absurd (hblank library hlibrary '\n' hmem) (by decide)
  have hfits := fits_toolchainLines hcompiler hstandard hoptimization hlibraries
  have hread : ∀ {name : String}, IsName name → ∀ rest : List Char,
      assignment? (name.toList ++ ' ' :: ':' :: '=' :: rest) = some ⟨name, .assign, rest⟩ ∧
        assignment? (name.toList ++ ' ' :: '+' :: '=' :: rest) = some ⟨name, .add, rest⟩ :=
    fun hname rest => ⟨Reading.assignment?_assign hname rest, Reading.assignment?_add hname rest⟩
  have hcc : IsName "CC" := by decide
  have hcflags : IsName "CFLAGS" := by decide
  have hlflags : IsName "LFLAGS" := by decide
  have hlines : lines g c = toolchainLines g c ++ (variableLines g (g.sources c.extension) ++
      (programLines (programSources g c) c ++ ((programSources g c).flatMap objectLines ++
      (testsLines (testSources g c) c ++ cleanLines (testSources g c) c)))) := by
    simp only [lines, List.append_assoc]
  -- the lines before it assign other variables
  rw [linkedWith?, hlines, splitOn_print_append fun line hline => (hfits line hline).isSingleLine,
    toolchainLines]
  simp only [List.map_cons, List.map_nil, List.cons_append, List.findSome?_cons, Line.toList_assign,
    Line.toList_append, Line.toList_assignTrimmed, hread hcc, hread hcflags, hread hlflags]
  rw [← libraryFlags, words_libraryFlags hblank]
  rfl

end flags

/-- The libraries of a project whose table was made with the texts that the user gave. A library is
listed exactly if it has a name and a file that a source reaches includes a header of the system for
which the last of the texts, or else the standard table, names the library. It is listed once, and
the order is that of the first such line, where the files come in depth-first preorder from the
sources. The flags in the Makefile say the same. -/
theorem resolve_libraries {r : Resolver} {fs : FileSystem} {g : Graph} {specs : List String}
    {pairs : List (String × String)} (hspecs : readPairs specs = .ok pairs)
    (htable : r.libraries = LibraryTable.standard.extend (LibraryTable.ofList pairs).entries)
    (h : (r.resolve fs).result = .ok g) :
    (∀ library, library ∈ g.libraries ↔ library ≠ "" ∧
      ∃ source ∈ (r.listing fs).sources, ∃ file,
        Relation.ReflTransGen (r.Includes fs) source file ∧
        ∃ content header, fs.read [] (r.path file) = .ok content ∧
          .systemHeader header ∈ Directive.ofContent content ∧
          libraryFor? specs header = some library) ∧
    g.libraries.Nodup ∧
    g.libraries = (((r.listing fs).sources.flatMap g.closure).eraseDups.flatMap
      (r.asked fs (libraryFor? specs))).eraseDups ∧
    ∀ c text, render g c = .ok text →
      (∀ library ∈ g.libraries, ∀ ch ∈ library.toList, Text.isBlank ch = false) →
      IsSingleLine c.compiler → IsSingleLine c.standard → IsSingleLine c.optimization →
      linkedWith? text = some (libraryFlags g.libraries) := by
  have hlookup : r.libraries.library? = libraryFor? specs := by
    funext header
    rw [htable, LibraryTable.extend_ofList, library?_of_readPairs hspecs]
  have hlist := libraries_eq h
  rw [hlookup] at hlist
  refine ⟨fun library => ?_, ?_, hlist, fun c text => linkedWith_render⟩
  · rw [mem_libraries_iff h, hlookup]
    simp only [mem_asked_iff]
    constructor
    · rintro ⟨source, hsource, file, path, hne, hasked⟩
      exact ⟨hne, source, hsource, file, path, hasked⟩
    · rintro ⟨hne, source, hsource, file, path, hasked⟩
      exact ⟨source, hsource, file, path, hne, hasked⟩
  · rw [hlist]
    exact nodup_eraseDups _

/-- The resolver for the cyclic project where the user has named the library once more. -/
def relinked : Resolver :=
  { cyclic with libraries := LibraryTable.standard.extend [("math.h", "m")] }

set_option maxRecDepth 4000 in
/-- Other libraries do not change the graph of the tree. -/
lemma resolve_relinked : (relinked.resolve cyclicTree).result = .ok cyclicGraph := by
  cbv

/-- The second text for the header counts, blanks and a flag aside. -/
theorem resolve_libraries_cyclic :
    readPairs ["math.h=old", " math.h = -lm"] = .ok [("math.h", "old"), ("math.h", "m")] ∧
    (relinked.resolve cyclicTree).result = .ok cyclicGraph ∧
    linkedWith? (print (lines cyclicGraph cyclicConfig)) = some ["-lm"] := by
  have hspecs : readPairs ["math.h=old", " math.h = -lm"] =
      .ok [("math.h", "old"), ("math.h", "m")] := by cbv
  have htable : relinked.libraries = LibraryTable.standard.extend
      (LibraryTable.ofList [("math.h", "old"), ("math.h", "m")]).entries := by cbv
  have hblank : ∀ library ∈ cyclicGraph.libraries, ∀ ch ∈ library.toList,
      Text.isBlank ch = false := by
    simp [cyclicGraph, Text.isBlank]
  obtain ⟨-, -, -, hflags⟩ := resolve_libraries hspecs htable resolve_relinked
  exact ⟨hspecs, resolve_relinked, hflags cyclicConfig _ render_cyclic hblank (by decide)
    (by decide) (by decide)⟩

end MakeDeps.Makefile
