import MakeDeps.Proofs.FileSystem.Direct
import MakeDeps.Proofs.Makefile.Commands

/-!
# What a Makefile makes and removes

The command lines of a Makefile write what follows `-o`, make the directory for objects, and remove
what `clean` lists; besides, `make` looks after the targets of the rules. No file of the graph is
among all this, or below, if that holds of a few names: those of the common rules, of the program
and of the tests. Then whatever is done leaves the files of the graph as they are:
`render_apart_iff`.

What a shell does with a command line is not known here. All that is asked of it is that a line
which means its words changes nothing but what these words name. The rules that `make` has by itself
are left out.
-/

namespace MakeDeps.Makefile
open Resolver

variable {g : Graph} {c : Config} {env : Environment} {source text word file : String}
  {words others : List String} {root : Location} {said : List Reading} {fs fs' : FileSystem}

/-- What follows `-o` in the arguments of a command, or is joined to it. -/
def outputsOf : List String → List String
  | [] => []
  | ["-o"] => []
  | "-o" :: file :: rest => file :: outputsOf rest
  | word :: rest =>
    match Text.dropStart? "-o".toList word.toList with
    | some file => String.ofList file :: outputsOf rest
    | none => outputsOf rest

/-- What a command makes or removes, by its words. -/
def namedBy : List String → List String
  | "mkdir" :: "-p" :: directories => directories
  | "rm" :: "-rf" :: files => files
  | _ :: arguments => outputsOf arguments
  | [] => []

/-- An option joined to its value, and one without any. -/
example : namedBy ["gcc", "-oa", "b.c", "-o", "c", "-o"] = ["a", "c"] := by
  decide

/-- All that the rules make or remove. -/
def products (env : Environment) (said : List Reading) : List String :=
  targetsIn env said ++ (commandLines env said).flatMap fun line => namedBy (Text.words line)

/-- What follows `-o` where the program is linked. An empty name is no word, and the first of the
libraries is taken for the program then. -/
def linkedProgram (g : Graph) (c : Config) : List String :=
  (Text.words c.program.toList ++ libraryWords g).take 1

/-- The products, those that lie in the directory for objects apart. -/
def productNames (g : Graph) (c : Config) : List String :=
  ["all", objectDirectory, "bin"] ++ linkedProgram g c ++
    (if (testSources g c).isEmpty then [] else ["tests"]) ++ (testSources g c).map testProgram ++
    [".PHONY", "clean"]

section products

/-- Does the word begin like the option for the output? -/
def IsOutput (word : String) : Prop :=
  "-o".toList <+: word.toList

/-- Whether a word begins like the option can be computed. -/
instance (word : String) : Decidable (IsOutput word) := by
  unfold IsOutput
  infer_instance

/-- Words that do not begin like the option name no output. -/
lemma outputsOf_append (h : ∀ word ∈ words, ¬ IsOutput word) (others : List String) :
    outputsOf (words ++ others) = outputsOf others := by
  induction words with
  | nil => rfl
  | cons word words ih =>
    have hword := h word List.mem_cons_self
    have hne : word ≠ "-o" := by
      rintro rfl
      exact hword List.prefix_rfl
    have hnone : Text.dropStart? "-o".toList word.toList = none := by
      rw [Option.eq_none_iff_forall_ne_some]
      intro rest hrest
      exact hword ⟨rest, Text.dropStart?_eq_some_iff.1 hrest⟩
    rw [List.cons_append, outputsOf.eq_4, hnone]
    · exact ih fun other hother => h other (List.mem_cons_of_mem _ hother)
    · exact fun heq => absurd heq hne
    · exact fun _ _ heq => absurd heq hne

/-- Such words by themselves name none, either. -/
lemma outputsOf_eq_nil (h : ∀ word ∈ words, ¬ IsOutput word) : outputsOf words = [] := by
  have happend := outputsOf_append h []
  rwa [List.append_nil] at happend

/-- A command that calls the compiler names its outputs. -/
lemma namedBy_tool {tool : String} (h : IsTool tool) (words : List String) :
    namedBy (tool :: words) = outputsOf words := by
  obtain ⟨hname, -⟩ := h
  simp only [List.mem_cons, List.not_mem_nil, or_false, not_or] at hname
  rw [namedBy.eq_3]
  · exact fun _ heq => absurd heq hname.2
  · exact fun _ heq => absurd heq hname.1

/-- Where the compiler is called, what is named comes behind the words that begin like no option for
the output. -/
lemma namedBy_compiler (h : Runnable g c) (hwords : ∀ word ∈ words, ¬ IsOutput word)
    (others : List String) :
    namedBy (compilerWords c ++ (words ++ others)) = outputsOf others := by
  obtain ⟨tool, arguments, hcompiler, htool⟩ := h.tool
  have harguments : ∀ word ∈ arguments, ¬ IsOutput word := fun word hword =>
    h.outputs word (by simp [hcompiler, hword])
  rw [hcompiler, List.cons_append, namedBy_tool htool, outputsOf_append harguments,
    outputsOf_append hwords]

/-- The path of an object file does not begin like an option. -/
lemma not_isOutput_objectProduct (source : String) : ¬ IsOutput (objectProduct source) := by
  rintro ⟨rest, hrest⟩
  simp [objectProduct, objectDirectory] at hrest

/-- Nor does the path of a source. -/
lemma Readable.not_isOutput (h : Readable g c) (hsource : source ∈ g.sources c.extension) :
    ¬ IsOutput source := by
  rintro ⟨rest, hrest⟩
  apply (h.sources source hsource).1
  rw [← hrest]
  rfl

/-- The flags of the compiler name no output. -/
lemma Runnable.not_isOutput_flags (h : Runnable g c) : ∀ word ∈ flagWords c, ¬ IsOutput word :=
  fun word hword => h.outputs word (by simp [hword])

/-- The libraries name no output. -/
lemma Runnable.not_isOutput_libraries (h : Runnable g c) :
    ∀ word ∈ libraryWords g, ¬ IsOutput word :=
  fun word hword => h.outputs word (by simp [hword])

/-- An empty program has no words, and any other is its word. -/
lemma words_program (h : Readable g c) :
    Text.words c.program.toList = [] ∨ Text.words c.program.toList = [c.program] := by
  by_cases hempty : c.program = ""
  · exact .inl (by simp [hempty])
  · exact .inr (h.program.isWord hempty).words

/-- What is named where the program is linked. -/
lemma namedBy_link (h : Runnable g c) : namedBy (compilerWords c ++
    ((programSources g c).map objectProduct ++
      ("-o" :: (Text.words c.program.toList ++ libraryWords g)))) = linkedProgram g c := by
  have hobjects : ∀ word ∈ (programSources g c).map objectProduct, ¬ IsOutput word := by
    intro word hword
    obtain ⟨source, -, rfl⟩ := List.mem_map.1 hword
    exact not_isOutput_objectProduct source
  have hlibraries := h.not_isOutput_libraries
  rw [namedBy_compiler h hobjects, linkedProgram]
  rcases words_program h.toReadable with hwords | hwords
  · rw [hwords, List.nil_append]
    cases hlist : libraryWords g with
    | nil => rfl
    | cons library rest =>
      rw [hlist] at hlibraries
      rw [outputsOf,
        outputsOf_eq_nil fun word hword => hlibraries word (List.mem_cons_of_mem _ hword)]
      rfl
  · rw [hwords, List.singleton_append, outputsOf, outputsOf_eq_nil hlibraries]
    rfl

/-- What is named where a source is compiled. -/
lemma namedBy_compile (h : Runnable g c) (hsource : source ∈ programSources g c) :
    namedBy (compilerWords c ++ (["-c", source] ++ flagWords c ++ ["-o", objectProduct source])) =
      [objectProduct source] := by
  have hfile := h.not_isOutput (mem_sources_of_mem_programSources hsource)
  have hwords : ∀ word ∈ ["-c", source] ++ flagWords c, ¬ IsOutput word := by
    simp only [List.forall_mem_append, List.forall_mem_cons]
    exact ⟨⟨by decide, hfile, by simp⟩, h.not_isOutput_flags⟩
  rw [namedBy_compiler h hwords]
  rfl

/-- What is named where a test is built. -/
lemma namedBy_test (h : Runnable g c) {test : String} (htest : test ∈ testSources g c) :
    namedBy (compilerWords c ++ (flagWords c ++ (test :: testedProducts g c) ++
      ("-o" :: testProgram test :: libraryWords g))) = [testProgram test] := by
  have htested : ∀ word ∈ testedProducts g c, ¬ IsOutput word := by
    intro word hword
    obtain ⟨source, -, rfl⟩ := List.mem_map.1 (List.mem_filter.1 hword).1
    exact not_isOutput_objectProduct source
  have hwords : ∀ word ∈ flagWords c ++ (test :: testedProducts g c), ¬ IsOutput word := by
    simp only [List.forall_mem_append, List.forall_mem_cons]
    exact ⟨h.not_isOutput_flags, h.not_isOutput (mem_sources_of_mem_testSources htest), htested⟩
  rw [namedBy_compiler h hwords, outputsOf, outputsOf_eq_nil h.not_isOutput_libraries]

/-- What the command lines of the Makefile name. -/
lemma flatMap_namedBy_commandLines (h : Runnable g c) (env : Environment) :
    (commandLines env (readings (print (lines g c)))).flatMap
        (fun line => namedBy (Text.words line)) =
      [objectDirectory] ++ linkedProgram g c ++ (programSources g c).map objectProduct ++
        (testSources g c).map testProgram ++
        (objectDirectory :: (Text.words c.program.toList ++ (testSources g c).map testProgram)) := by
  have he := isFinal_environment h env
  rw [commandLines, commands_lines h.toReadable, List.flatMap_map]
  generalize environment env (readings (print (lines g c))) = final at he
  have hdirectory : namedBy (Text.words (commandLine final directoryCommand)) =
      [objectDirectory] := by
    rw [commandLine_directory he]
    decide
  have hcompile : ((programSources g c).map compileCommand).flatMap
      (fun command => namedBy (Text.words (commandLine final command))) =
        (programSources g c).map objectProduct := by
    rw [List.flatMap_map, ← List.flatMap_pure_eq_map]
    refine List.flatMap_congr fun source hsource => ?_
    rw [words_compile h he hsource, namedBy_compile h hsource]
    rfl
  have htest : ((testSources g c).map testCommand).flatMap
      (fun command => namedBy (Text.words (commandLine final command))) =
        (testSources g c).map testProgram := by
    rw [List.flatMap_map, ← List.flatMap_pure_eq_map]
    refine List.flatMap_congr fun test htest => ?_
    rw [words_test h he htest, namedBy_test h htest]
    rfl
  simp only [commandsOf, List.flatMap_append, List.flatMap_cons, List.flatMap_nil, hdirectory,
    hcompile, htest, words_link h he, namedBy_link h, words_clean h he, List.append_nil]
  rfl

/-- What is removed of the program is what is linked. -/
lemma mem_linkedProgram (h : Readable g c) (hword : word ∈ Text.words c.program.toList) :
    word ∈ linkedProgram g c := by
  rcases words_program h with hwords | hwords
  · rw [hwords] at hword
    cases hword
  · rw [linkedProgram, hwords]
    rw [hwords] at hword
    exact hword

/-- What the command lines name is the directory for objects, or what is linked or compiled. -/
lemma mem_namedBy_commandLines (h : Runnable g c) (env : Environment) :
    word ∈ (commandLines env (readings (print (lines g c)))).flatMap
        (fun line => namedBy (Text.words line)) ↔
      word = objectDirectory ∨ word ∈ linkedProgram g c ∨
        word ∈ (programSources g c).map objectProduct ∨
        word ∈ (testSources g c).map testProgram := by
  have hremoved : word ∈ Text.words c.program.toList → word ∈ linkedProgram g c :=
    mem_linkedProgram h.toReadable
  rw [flatMap_namedBy_commandLines h]
  simp only [List.mem_append, List.mem_cons, List.not_mem_nil, or_false]
  grind

/-- What the Makefile makes and removes has its name from the configuration, from a test, or from
the Makefile itself, or it lies in the directory for objects. -/
lemma mem_products_lines (h : Runnable g c) (env : Environment) :
    word ∈ products env (readings (print (lines g c))) ↔
      word ∈ productNames g c ++ (programSources g c).map objectProduct := by
  rw [products, List.mem_append, mem_namedBy_commandLines h, targetsIn_lines h.toReadable,
    productNames]
  generalize (programSources g c).map objectProduct = objects
  generalize (testSources g c).map testProgram = programs
  generalize (if (testSources g c).isEmpty then [] else ["tests"] : List String) = every
  simp only [List.mem_append, List.mem_cons, List.not_mem_nil, or_false]
  grind

end products

section covers

/-- Is the file where the word leads, or below? Paths are read by their names alone, from the
directory in which the commands run. -/
def Covers (root : Location) (word file : String) : Prop :=
  (Path.ofString word).locationFrom root <+: (Path.ofString file).locationFrom root

/-- No file is where one of the words leads, or below. -/
def Apart (root : Location) (words files : List String) : Prop :=
  ∀ word ∈ words, ∀ file ∈ files, ¬ Covers root word file

/-- Whether products and files are apart can be computed. -/
instance (words files : List String) : Decidable (Apart root words files) := by
  unfold Apart Covers
  infer_instance

/-- The name of an object file is one part of a path. -/
lemma isPart_objectName (source : String) : Path.IsPart (flatName source ++ ".o") := by
  have hlast : 'o' ∈ (flatName source ++ ".o").toList := by simp
  refine ⟨?_, ?_, ?_⟩
  · intro heq
    rw [heq] at hlast
    cases hlast
  · intro heq
    rw [heq] at hlast
    revert hlast
    decide
  · intro hmem
    rw [String.toList_append, List.mem_append] at hmem
    rcases hmem with hmem | hmem
    · unfold flatName flatten at hmem
      rw [String.toList_ofList] at hmem
      obtain ⟨d, -, heq⟩ := List.mem_map.1 hmem
      split at heq
      · cases heq
      · next hd => exact hd heq
    · revert hmem
      decide

/-- A name in the directory where the commands run, with names below it, leads there. -/
lemma locationFrom_fileName {names : List String}
    (h : ∀ name ∈ names, Path.IsPart name ∧ name ≠ "..") :
    (Path.ofString (fileName names)).locationFrom root = root ++ names := by
  have hpath : Path.ofString (fileName names) = ⟨.relative, names⟩ :=
    Path.ofString_text fun name hname => (h name hname).1
  rw [hpath]
  exact FileSystem.along_eq_append fun name hname => (h name hname).2

/-- An object file lies in the directory for objects. -/
lemma covers_objectDirectory (h : Covers root (objectProduct source) file) :
    Covers root objectDirectory file := by
  have hdirectory : Path.IsPart objectDirectory ∧ objectDirectory ≠ ".." :=
    ⟨⟨by decide, by decide, by decide⟩, by decide⟩
  have hobject : flatName source ++ ".o" ≠ ".." := by
    intro heq
    have hlast : 'o' ∈ (flatName source ++ ".o").toList := by simp
    rw [heq] at hlast
    revert hlast
    decide
  have hfolder : objectDirectory = fileName [objectDirectory] := by decide
  have hfile : objectProduct source = fileName [objectDirectory, flatName source ++ ".o"] := by
    simp [objectProduct, fileName, Path.text, Path.here, Anchor.text, String.append_assoc]
  unfold Covers at h ⊢
  rw [hfile, locationFrom_fileName] at h
  · rw [hfolder, locationFrom_fileName]
    · exact (List.prefix_append (root ++ [objectDirectory]) [flatName source ++ ".o"]).trans
        (by simpa using h)
    · simpa using hdirectory
  · simpa using ⟨hdirectory, isPart_objectName source, hobject⟩

/-- Only a few of the products matter for what lies where one of them leads, or below. -/
lemma apart_products_iff (h : Runnable g c) (env : Environment) :
    Apart root (products env (readings (print (lines g c)))) g.mentioned ↔
      Apart root (productNames g c) g.mentioned := by
  have hproducts : ∀ word, word ∈ products env (readings (print (lines g c))) ↔
      word ∈ productNames g c ++ (programSources g c).map objectProduct := fun word =>
    mem_products_lines h env
  constructor
  · intro hapart word hword
    exact hapart word ((hproducts word).2 (List.mem_append_left _ hword))
  · intro hapart word hword file hfile hcovers
    rcases List.mem_append.1 ((hproducts word).1 hword) with hword | hword
    · exact hapart word hword file hfile hcovers
    · obtain ⟨source, -, rfl⟩ := List.mem_map.1 hword
      have hdirectory : objectDirectory ∈ productNames g c := by simp [productNames]
      exact hapart objectDirectory hdirectory file hfile (covers_objectDirectory hcovers)

end covers

section steps

/-- A change of the files at one of the words: it is written, or made a directory, or removed with
all that is below. -/
inductive Touches (root : Location) (words : List String) : FileSystem → FileSystem → Prop
  | write {fs fs' : FileSystem} {word : String} {content : List UInt8} : word ∈ words →
    fs.write root (.ofString word) content = .ok fs' → Touches root words fs fs'
  | makeDirectory {fs : FileSystem} {word : String} : word ∈ words →
    Touches root words fs (fs.edit root (.makeDirectory (.ofString word)))
  | remove {fs : FileSystem} {word : String} : word ∈ words →
    Touches root words fs (fs.edit root (.remove (.ofString word)))

/-- Does what a shell does with the command lines of a Makefile stay at the words that they name?
This is asked of lines only that mean their words. -/
def Respects (performs : List Char → FileSystem → FileSystem → Prop) (root : Location)
    (lines : List (List Char)) : Prop :=
  ∀ line ∈ lines, IsQuiet line → ∀ fs fs', performs line fs fs' →
    Relation.ReflTransGen (Touches root (namedBy (Text.words line))) fs fs'

/-- What `make` does to the files: it has the shell perform a command line, or it touches or removes
the target of a rule itself. -/
inductive Builds (performs : List Char → FileSystem → FileSystem → Prop) (root : Location)
    (env : Environment) (said : List Reading) : FileSystem → FileSystem → Prop
  | command {fs fs' : FileSystem} {line : List Char} : line ∈ commandLines env said →
    performs line fs fs' → Builds performs root env said fs fs'
  | target {fs fs' : FileSystem} : Touches root (targetsIn env said) fs fs' →
    Builds performs root env said fs fs'

/-- A change at some of the words is one at all of them. -/
lemma Touches.mono (hsub : words ⊆ others) (h : Touches root words fs fs') :
    Touches root others fs fs' := by
  cases h with
  | write hword hwrite => exact .write (hsub hword) hwrite
  | makeDirectory hword => exact .makeDirectory (hsub hword)
  | remove hword => exact .remove (hsub hword)

/-- No change leaves a link behind that was not there. -/
lemma Touches.addsNoLink (h : Touches root words fs fs') : fs.AddsNoLink fs' := by
  cases h with
  | write _ hwrite => exact FileSystem.addsNoLink_write hwrite fun _ => Path.isPart_of_mem_parts
  | makeDirectory _ => exact FileSystem.addsNoLink_makeDirectory
  | remove _ => exact FileSystem.addsNoLink_remove

/-- A change leaves what is apart from all words. -/
lemma Touches.find? (h : Touches root words fs fs') {loc : Location} {e : Entry}
    (hdirect : ∀ word ∈ words, fs.IsDirect root (.ofString word))
    (hapart : ∀ word ∈ words, ¬ (Path.ofString word).locationFrom root <+: loc)
    (hfind : fs.find? loc = some e) : fs'.find? loc = some e := by
  cases h with
  | @write _ word content hword hwrite =>
    rw [FileSystem.find?_write_direct hwrite (fun _ => Path.isPart_of_mem_parts)
      (hdirect word hword) (hapart word hword), hfind]
  | makeDirectory _ => exact FileSystem.find?_makeDirectory hfind
  | @remove word hword =>
    exact FileSystem.find?_remove_direct (fun _ => Path.isPart_of_mem_parts)
      (hdirect word hword) (hapart word hword) hfind

/-- So does any number of them. -/
lemma find?_of_touches (h : Relation.ReflTransGen (Touches root words) fs fs') {loc : Location}
    {e : Entry} (hdirect : ∀ word ∈ words, fs.IsDirect root (.ofString word))
    (hapart : ∀ word ∈ words, ¬ (Path.ofString word).locationFrom root <+: loc)
    (hfind : fs.find? loc = some e) : fs'.find? loc = some e := by
  induction h using Relation.ReflTransGen.head_induction_on with
  | refl => exact hfind
  | head hstep _ ih =>
    apply ih
    · exact fun word hword => (hdirect word hword).of_addsNoLink hstep.addsNoLink
    · exact hstep.find? hdirect hapart hfind

/-- What `make` does with command lines that mean their words is a number of changes at products. -/
lemma touches_of_builds {performs : List Char → FileSystem → FileSystem → Prop}
    (hrespects : Respects performs root (commandLines env said))
    (hquiet : ∀ line ∈ commandLines env said, IsQuiet line)
    (h : Relation.ReflTransGen (Builds performs root env said) fs fs') :
    Relation.ReflTransGen (Touches root (products env said)) fs fs' := by
  have hmono : ∀ {words fs fs'}, words ⊆ products env said →
      Relation.ReflTransGen (Touches root words) fs fs' →
      Relation.ReflTransGen (Touches root (products env said)) fs fs' := fun hsub htouches =>
    Relation.ReflTransGen.mono (fun _ _ htouch => htouch.mono hsub) _ _ htouches
  induction h with
  | refl => exact .refl
  | tail _ hstep ih =>
    refine ih.trans ?_
    cases hstep with
    | @command line hline hperforms =>
      refine hmono ?_ (hrespects line hline (hquiet line hline) _ _ hperforms)
      exact fun word hword => List.mem_append_right _ (List.mem_flatMap.2 ⟨line, hline, hword⟩)
    | target htouches =>
      exact hmono (List.subset_append_left _ _) (.single htouches)

end steps

/-- Nothing in the settings of the cyclic project means anything to the shell. -/
lemma runnable_cyclic : Runnable cyclicGraph cyclicConfig where
  toReadable := readable_cyclic
  literal := by decide
  quiet := by
    have hquiet : ([cyclicConfig.compiler, cyclicConfig.standard, cyclicConfig.optimization] ++
        cyclicGraph.libraries).all (fun setting => setting.toList.all isQuietChar) = true := by
      decide
    exact fun setting hsetting => List.all_eq_true.1 (List.all_eq_true.1 hquiet setting hsetting)
  tool := ⟨"gcc", ["-pipe"], by decide, by decide⟩
  outputs := by decide

/-- What a shell with three programs does with a line: directories are made, files are removed, and
a compiler leaves an empty file. -/
def performed (root : Location) (line : List Char) (fs : FileSystem) : FileSystem :=
  match Text.words line with
  | "mkdir" :: "-p" :: directories => directories.foldl
      (fun fs word => fs.edit root (.makeDirectory (.ofString word))) fs
  | "rm" :: "-rf" :: files =>
    files.foldl (fun fs word => fs.edit root (.remove (.ofString word))) fs
  | words => (outputsOf words.tail).foldl
      (fun fs word => ((fs.write root (.ofString word) []).toOption).getD fs) fs

/-- Changes at words one after the other are changes at these words. -/
lemma touches_foldl {change : FileSystem → String → FileSystem}
    (h : ∀ fs, ∀ word ∈ words, Relation.ReflTransGen (Touches root words) fs (change fs word)) :
    Relation.ReflTransGen (Touches root words) fs (words.foldl change fs) := by
  suffices hfold : ∀ some : List String, some ⊆ words → ∀ fs,
      Relation.ReflTransGen (Touches root words) fs (some.foldl change fs) from
    hfold words (List.Subset.refl _) fs
  intro some hsome
  induction some with
  | nil => exact fun fs => .refl
  | cons word some ih =>
    intro fs
    obtain ⟨hword, hrest⟩ := List.cons_subset.1 hsome
    exact (h fs word hword).trans (ih hrest (change fs word))

/-- Such a shell stays at what the words of a line name. -/
lemma respects_performed (root : Location) (lines : List (List Char)) :
    Respects (fun line fs fs' => fs' = performed root line fs) root lines := by
  rintro line - - fs _ rfl
  unfold performed
  split
  · next directories hwords =>
    rw [hwords]
    exact touches_foldl fun fs word hword => .single (.makeDirectory hword)
  · next files hwords =>
    rw [hwords]
    exact touches_foldl fun fs word hword => .single (.remove hword)
  · next words hmkdir hrm =>
    have hnamed : namedBy (Text.words line) = outputsOf (Text.words line).tail := by
      cases hlist : Text.words line with
      | nil => rfl
      | cons tool arguments =>
        rw [hlist] at hmkdir hrm
        rw [namedBy.eq_3]
        · rfl
        · rintro directories rfl rfl
          exact hmkdir directories rfl
        · rintro files rfl rfl
          exact hrm files rfl
    rw [hnamed]
    refine touches_foldl fun fs word hword => ?_
    cases hwrite : fs.write root (.ofString word) [] with
    | ok fs' => exact .single (.write hword hwrite)
    | error e => exact .refl

/-- In a tree without links all paths are direct. -/
lemma isDirect_cyclicTree (root : Location) (path : Path) : cyclicTree.IsDirect root path := by
  have hentries : ∀ entry ∈ cyclicTree.entries, ∀ target, entry.2 ≠ .link target := by
    simp [cyclicTree]
  intro names hnames target hlink
  rcases FileSystem.find?_eq_some_iff.1 hlink with ⟨-, hdirectory⟩ | hmem
  · cases hdirectory
  · exact hentries _ hmem target rfl

/-- A graph of one source. -/
def single : Graph := ⟨[("main.c", [])], []⟩

/-- A configuration with this name for the program. -/
def namedConfig (program : String) : Config :=
  { cyclicConfig with program := program, entryPoint := "main" }

/-- There are no tests in that graph. -/
lemma testSources_single (program : String) : testSources single (namedConfig program) = [] := by
  cbv

/-- There is a Makefile whatever the program is called. -/
lemma render_single (program : String) : render single (namedConfig program) =
    .ok (print (lines single (namedConfig program))) := by
  have hclash : findClash [] (single.sources (namedConfig program).extension) = none := by
    cbv
  rw [render, check, testSources_single, hclash]
  rfl

/-- With the name of the source for the program, nothing means anything to the shell. -/
lemma runnable_single : Runnable single (namedConfig "main.c") where
  files := by decide
  sources := (starts_of_files (g := single) (c := namedConfig "main.c") (by decide)).1
  tests := (starts_of_files (g := single) (c := namedConfig "main.c") (by decide)).2
  program := by decide
  programStart := by decide
  compiler := by decide
  standard := by decide
  optimization := by decide
  libraries := by decide
  entryPoint := by decide
  literal := by decide
  quiet := fun setting hsetting =>
    runnable_cyclic.quiet setting
      (List.mem_append_left ["m"] ((List.mem_append.1 hsetting).resolve_right List.not_mem_nil))
  tool := runnable_cyclic.tool
  outputs := by decide

/-- A command that removes two plain files besides the directory for objects names all three. -/
lemma namedBy_remove (hdirectory : env "ODIR" = objectDirectory.toList) {first second : String}
    (hfirst : IsPlain first ∧ first ≠ "") (hsecond : IsPlain second ∧ second ≠ "") :
    namedBy (Text.words (commandLine env ["rm", "-rf", objectDirectoryRef, first, second])) =
      [objectDirectory, first, second] := by
  have hremove : expand env "rm".toList = 'r' :: ['m'] := expand_eq_self (by decide)
  have hclosed : ∀ item ∈ ["rm", "-rf", objectDirectoryRef, first, second], IsClosed item := by
    simp only [List.forall_mem_cons]
    exact ⟨isClosed_of_not_mem (by decide), isClosed_of_not_mem (by decide),
      isClosed_reference "ODIR" (by decide), hfirst.1.isClosed, hsecond.1.isClosed, by simp⟩
  have hreference : Text.words (expand env objectDirectoryRef.toList) = [objectDirectory] := by
    refine (words_reference "ODIR" (by decide)).trans ?_
    rw [hdirectory]
    decide
  have hoption : Text.words (expand env "-rf".toList) = ["-rf"] :=
    words_plain (by decide) (by decide)
  have hprogram : Text.words (expand env "rm".toList) = ["rm"] :=
    words_plain (by decide) (by decide)
  rw [words_commandLine hclosed hremove (by decide)]
  simp only [List.flatMap_cons, List.flatMap_nil, hprogram, hoption, hreference,
    words_plain hfirst.1 hfirst.2, words_plain hsecond.1 hsecond.2]
  rfl

end MakeDeps.Makefile
