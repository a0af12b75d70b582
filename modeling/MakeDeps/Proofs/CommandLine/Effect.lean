import MakeDeps.Proofs.CommandLine.Endings
import MakeDeps.Proofs.Resolver.Graph
import MakeDeps.Proofs.Text.Encoding

/-!
# What a run leaves behind

A run that ends with exit code 0 changes the file at the output path and no other. One that does not
changes no file, unless it has opened the file for a text that cannot be encoded, which leaves it
empty. An error is logged where the exit code is 1, and only there: `run_effect`.
-/

namespace MakeDeps

/-- The bytes of a text are those that the language has for it. -/
lemma Text.Utf8.encode_toList (text : String) :
    Text.Utf8.encode text.toList = text.toUTF8.data.toList := by
  rw [Text.Utf8.encode, String.toUTF8, ← String.utf8Encode_toList]
  simp [List.utf8Encode]

/-- The events of a log that are errors. -/
def errors (log : List Event) : List Event :=
  log.filter fun event => event.level = .error

/-- A quiet log has no errors. -/
lemma IsQuiet.errors {log : List Event} (h : IsQuiet log) : errors log = [] := by
  apply List.filter_eq_nil_iff.2
  intro event hevent
  simpa using h event hevent

/-- A failure behind a quiet log is its only error. -/
lemma errors_append_failed {log : List Event} (h : IsQuiet log) (failure : Failure) :
    errors (log ++ [.failed failure]) = [.failed failure] := by
  have hfailed : errors [.failed failure] = [.failed failure] := rfl
  rw [errors, List.filter_append, ← errors, ← errors, h.errors, hfailed, List.nil_append]

/-- The file systems differ at the end of the path only: there was nothing or a file before, and
there is a file with this content now. -/
def FileSystem.Puts (fs : FileSystem) (cwd : Location) (path : Path) (content : List UInt8)
    (fs' : FileSystem) : Prop :=
  ∃ place, fs.locate cwd true path = .ok place ∧
    (fs.find? place.location = none ∨ ∃ old, fs.find? place.location = some (.file old)) ∧
    ∀ loc, fs'.find? loc = if loc = place.location then some (.file content) else fs.find? loc

namespace Makefile

variable {items : List String} {ls : List Line} {item : String} {line : Line} {c : Char}

/-- A line has the characters of its words. -/
lemma mem_words_of_mem (hitem : item ∈ items) (hc : c ∈ item.toList) :
    c ∈ (Line.words items).toList := by
  rw [Line.words, String.toList_intercalate]
  induction items with
  | nil => cases hitem
  | cons first items ih =>
    cases items with
    | nil =>
      cases List.mem_singleton.1 hitem
      simpa using hc
    | cons second items =>
      rw [List.map_cons, List.map_cons, List.intercalate_cons_cons, List.mem_append,
        List.mem_append]
      rcases List.mem_cons.1 hitem with rfl | hitem
      · exact .inl (.inl hc)
      · exact .inr (ih hitem)

/-- A text has the characters of its lines. -/
lemma mem_print_of_mem (hline : line ∈ ls) (hc : c ∈ line.text.toList) :
    c ∈ (print ls).toList := by
  obtain ⟨before, after, rfl⟩ := List.append_of_mem hline
  simp [print, String.join_append, hc]

/-- A Makefile has no bytes where the name of the program has none. -/
lemma exists_encode_error (g : Graph) (config : Config) {enc : Text.Encoding}
    (hc : c ∈ config.program.toList) (henc : enc.has c = false) :
    ∃ e, enc.encode (print (lines g config)) = .error e := by
  cases hencode : enc.encode (print (lines g config)) with
  | error e => exact ⟨e, rfl⟩
  | ok bytes =>
    have hline : .recipe [compiler, programObjects, "-o", config.program, linkerFlags] ∈
        lines g config := by
      simp [lines, programLines]
    have hmem : c ∈ (print (lines g config)).toList := by
      refine mem_print_of_mem hline ?_
      rw [Line.text, String.toList_append]
      exact List.mem_append_right _ (mem_words_of_mem (by simp) hc)
    rw [(Text.Encoding.encode_eq_ok_iff.1 hencode).1 c hmem] at henc
    cases henc

end Makefile

namespace CommandLine

variable {host : Host} {fs : FileSystem} {cwd : Location} {project : Project} {output : Path}
  {a : Arguments} {report : Report} {log : List Event} {text : String}

/-- The run comes to write this text to this path: the settings were completed, the links were read,
and the graph of the directory was found and rendered. -/
inductive Renders (host : Host) (fs : FileSystem) (cwd : Location) (a : Arguments) :
    Path → String → Prop
  | mk {config : Config} {pairs : List (String × String)} {directory output : String}
      {r : Resolver} {g : Graph} {text : String} :
    Config.ofSettings a.settings = .ok config →
    a.links.mapM readLink = .ok pairs →
    a.directory = .text directory →
    a.output = .text output →
    Resolver.create fs cwd (.ofString directory) config.extension
      (LibraryTable.standard.extend pairs) host.nesting = .ok r →
    (r.resolve fs).result = .ok g →
    Makefile.render g config = .ok text →
    Renders host fs cwd a ((Path.ofString directory).join (.ofString output)) text

/-- The report of a run that logs an error if, and only if, its exit code is 1. -/
structure IsOrderly (report : Report) : Prop where
  code : ∀ code, report.outcome = .ok code → code = 0 ∨ code = 1
  logged : report.outcome = .ok 1 → (errors report.log).length = 1
  quiet : report.outcome ≠ .ok 1 → errors report.log = []

/-- A run that fails does not end with exit code 0. -/
lemma outcome_fail (failure : Failure) (log : List Event) (fs : FileSystem) :
    (fail failure log fs).outcome ≠ .ok 0 := by
  unfold fail
  split
  · simp
  · simp

/-- A run that fails leaves the files that it is told to leave. -/
lemma files_fail (failure : Failure) (log : List Event) (fs : FileSystem) :
    (fail failure log fs).files = fs := by
  unfold fail
  split <;> rfl

/-- A failure is logged where it makes the exit code 1. -/
lemma isOrderly_fail (h : IsQuiet log) (failure : Failure) (fs : FileSystem) :
    IsOrderly (fail failure log fs) := by
  unfold fail
  split
  · refine ⟨?_, ?_, ?_⟩
    · rintro code hcode
      cases hcode
      exact .inr rfl
    · intro _
      rw [errors_append_failed h]
      rfl
    · exact fun hcode => absurd rfl hcode
  · exact ⟨by simp, by simp, fun _ => h.errors⟩

/-- A run logs an error if, and only if, its exit code is 1. -/
lemma Runs.isOrderly (h : Runs host fs cwd a report) : IsOrderly report := by
  rcases h.fails_or_succeeds with ⟨failure, log, files, hlog, rfl⟩ | ⟨hcode, hlog⟩
  · exact isOrderly_fail hlog failure files
  · refine ⟨?_, ?_, fun _ => hlog.errors⟩
    · intro code hcode'
      cases hcode.symm.trans hcode'
      exact .inl rfl
    · intro hone
      cases hcode.symm.trans hone

/-- A project is built up to the writing of its Makefile, or no file is changed. -/
lemma Builds.kept_or_rendered (h : Builds fs cwd project output report) :
    (report.outcome ≠ .ok 0 ∧ report.files = fs) ∨
      ∃ r g text, project.resolver fs cwd = .ok r ∧ (r.resolve fs).result = .ok g ∧
        Makefile.render g project.config = .ok text := by
  cases h with
  | noResolver _ => exact .inl ⟨outcome_fail _ _ _, files_fail _ _ _⟩
  | unresolved _ _ => exact .inl ⟨outcome_fail _ _ _, files_fail _ _ _⟩
  | unrendered _ _ _ _ => exact .inl ⟨outcome_fail _ _ _, files_fail _ _ _⟩
  | unwritten hresolver hresolve hrender _ _ =>
    exact .inr ⟨_, _, _, hresolver, hresolve, hrender⟩
  | unencoded hresolver hresolve hrender _ _ _ =>
    exact .inr ⟨_, _, _, hresolver, hresolve, hrender⟩
  | written hresolver hresolve hrender _ _ _ =>
    exact .inr ⟨_, _, _, hresolver, hresolve, hrender⟩

/-- What comes of a text that is to be written: the system refuses to open the file; or the file is
opened and the text cannot be encoded, which leaves it empty; or the bytes of the text are in it. -/
inductive WriteEnds (host : Host) (fs : FileSystem) (cwd : Location) (path : Path) (text : String)
    (report : Report) : Prop
  | refused {fault : Fault} :
    fs.write cwd path ((host.encoding.encode text).toOption.getD []) = .error fault →
    report.outcome ≠ .ok 0 →
    report.files = fs →
    WriteEnds host fs cwd path text report
  | emptied {e : Text.EncodingError} :
    host.encoding.encode text = .error e →
    fs.write cwd path [] = .ok report.files →
    report.outcome = .error (.unencodable e) →
    WriteEnds host fs cwd path text report
  | written {bytes : List UInt8} :
    host.encoding.encode text = .ok bytes →
    fs.write cwd path bytes = .ok report.files →
    report.outcome = .ok 0 →
    WriteEnds host fs cwd path text report

/-- A project that comes to the writing of its Makefile writes what was rendered. -/
lemma Builds.writeEnds {r : Resolver} {g : Graph} (h : Builds fs cwd project output report)
    (hresolver : project.resolver fs cwd = .ok r) (hresolve : (r.resolve fs).result = .ok g)
    (hrender : Makefile.render g project.config = .ok text) :
    WriteEnds project.host fs cwd output text report := by
  cases h with
  | noResolver hresolver' => cases hresolver.symm.trans hresolver'
  | unresolved hresolver' hresolve' =>
    cases hresolver.symm.trans hresolver'
    cases hresolve.symm.trans hresolve'
  | unrendered hresolver' hresolve' hrender' _ =>
    cases hresolver.symm.trans hresolver'
    cases hresolve.symm.trans hresolve'
    cases hrender.symm.trans hrender'
  | unwritten hresolver' hresolve' hrender' hwrite _ =>
    cases hresolver.symm.trans hresolver'
    cases hresolve.symm.trans hresolve'
    cases hrender.symm.trans hrender'
    exact .refused hwrite (outcome_fail _ _ _) (files_fail _ _ _)
  | unencoded hresolver' hresolve' hrender' hencode hwrite _ =>
    cases hresolver.symm.trans hresolver'
    cases hresolve.symm.trans hresolve'
    cases hrender.symm.trans hrender'
    exact .emptied hencode hwrite rfl
  | written hresolver' hresolve' hrender' hencode hwrite _ =>
    cases hresolver.symm.trans hresolver'
    cases hresolve.symm.trans hresolve'
    cases hrender.symm.trans hrender'
    exact .written hencode hwrite rfl

/-- A run comes to write a text, or it changes no file. -/
lemma Runs.kept_or_renders (h : Runs host fs cwd a report) :
    (report.outcome ≠ .ok 0 ∧ report.files = fs) ∨
      ∃ path text, Renders host fs cwd a path text := by
  cases h with
  | noConfig _ => exact .inl ⟨outcome_fail _ _ _, files_fail _ _ _⟩
  | noLinks _ => exact .inl ⟨outcome_fail _ _ _, files_fail _ _ _⟩
  | noValue _ => exact .inl ⟨outcome_fail _ _ _, files_fail _ _ _⟩
  | built hconfig hlinks hdirectory houtput hbuilds =>
    refine hbuilds.kept_or_rendered.imp_right ?_
    rintro ⟨r, g, text, hresolver, hresolve, hrender⟩
    exact ⟨_, text, .mk hconfig hlinks hdirectory houtput hresolver hresolve hrender⟩

/-- A run that comes to write a text ends as the writing does. -/
lemma Renders.writeEnds {path : Path} (h : Renders host fs cwd a path text) :
    WriteEnds host fs cwd path text (run host fs cwd a) := by
  have hruns := runs_run host fs cwd a
  generalize run host fs cwd a = report at hruns ⊢
  cases h with
  | mk hconfig hlinks hdirectory houtput hcreate hresolve hrender =>
    cases hruns with
    | noConfig hconfig' => cases hconfig.symm.trans hconfig'
    | noLinks hlinks' => cases hlinks.symm.trans hlinks'
    | noValue hvalue =>
      rcases hvalue with hvalue | hvalue
      · cases hdirectory.symm.trans hvalue
      · cases houtput.symm.trans hvalue
    | built hconfig' hlinks' hdirectory' houtput' hbuilds =>
      cases hconfig.symm.trans hconfig'
      cases hlinks.symm.trans hlinks'
      cases hdirectory.symm.trans hdirectory'
      cases houtput.symm.trans houtput'
      exact hbuilds.writeEnds hcreate hresolve hrender

/-- The names in the path of the Makefile have no separator. -/
lemma Renders.noSeparator {path : Path} (h : Renders host fs cwd a path text) :
    ∀ part ∈ path.parts, '/' ∉ part.toList := by
  cases h with
  | mk _ _ _ _ _ _ _ => exact noSeparator_outputPath

/-- A text that cannot be encoded leaves an empty file, if the file can be opened. -/
lemma Renders.emptied {path : Path} {e : Text.EncodingError} {files : FileSystem}
    (h : Renders host fs cwd a path text) (hencode : host.encoding.encode text = .error e)
    (hwrite : fs.write cwd path [] = .ok files) :
    (run host fs cwd a).outcome = .error (.unencodable e) ∧ (run host fs cwd a).files = files := by
  rcases h.writeEnds with ⟨hrefused, -, -⟩ | ⟨hencode', hwrite', houtcome⟩ | ⟨hencode', -, -⟩
  · rw [hencode] at hrefused
    cases hwrite.symm.trans hrefused
  · cases hencode.symm.trans hencode'
    cases hwrite.symm.trans hwrite'
    exact ⟨houtcome, rfl⟩
  · cases hencode.symm.trans hencode'

/-- A text that can be encoded is written, if the file can be opened. -/
lemma Renders.written {path : Path} {bytes : List UInt8} {files : FileSystem}
    (h : Renders host fs cwd a path text) (hencode : host.encoding.encode text = .ok bytes)
    (hwrite : fs.write cwd path bytes = .ok files) :
    (run host fs cwd a).outcome = .ok 0 ∧ (run host fs cwd a).files = files := by
  rcases h.writeEnds with ⟨hrefused, -, -⟩ | ⟨hencode', -, -⟩ | ⟨hencode', hwrite', houtcome⟩
  · rw [hencode] at hrefused
    cases hwrite.symm.trans hrefused
  · cases hencode.symm.trans hencode'
  · cases hencode.symm.trans hencode'
    cases hwrite.symm.trans hwrite'
    exact ⟨houtcome, rfl⟩

/-- A run changes no file unless it comes to write a text, which has been rendered from the graph of
the directory. If it then ends with exit code 0, the output path leads to the bytes of that text, in
UTF-8 if this is the encoding; all other files are as they were. If it does not, they all are,
except where the text cannot be encoded: a file that could be opened is left empty then, whatever it
held, and this ends the run without an exit code. An error is logged where the exit code is 1, and
then one; no other exit code than 0 and 1 occurs. -/
theorem run_effect (host : Host) (fs : FileSystem) (cwd : Location) (a : Arguments) :
    ((run host fs cwd a).outcome ≠ .ok 0 →
      ((run host fs cwd a).files = fs ∨ ∃ path text e, Renders host fs cwd a path text ∧
        host.encoding.encode text = .error e ∧
        (run host fs cwd a).outcome = .error (.unencodable e) ∧
        fs.Puts cwd path [] (run host fs cwd a).files)) ∧
    (∀ path text e files, Renders host fs cwd a path text →
      host.encoding.encode text = .error e → fs.write cwd path [] = .ok files →
      (run host fs cwd a).outcome = .error (.unencodable e) ∧
      fs.Puts cwd path [] (run host fs cwd a).files) ∧
    ((run host fs cwd a).outcome = .ok 0 → ∃ path text bytes, Renders host fs cwd a path text ∧
      host.encoding.encode text = .ok bytes ∧
      (∀ isSurrogate, host.encoding = .utf8 isSurrogate → bytes = text.toUTF8.data.toList) ∧
      (run host fs cwd a).files.read cwd path = .ok bytes ∧
      fs.Puts cwd path bytes (run host fs cwd a).files) ∧
    (∀ code, (run host fs cwd a).outcome = .ok code → code = 0 ∨ code = 1) ∧
    ((run host fs cwd a).outcome = .ok 1 → (errors (run host fs cwd a).log).length = 1) ∧
    ((run host fs cwd a).outcome ≠ .ok 1 → errors (run host fs cwd a).log = []) := by
  have hruns := runs_run host fs cwd a
  have horderly := hruns.isOrderly
  refine ⟨fun hcode => ?_, fun path text e files hrenders hencode hwrite => ?_, fun hcode => ?_,
    horderly.code, horderly.logged, horderly.quiet⟩
  · rcases hruns.kept_or_renders with ⟨-, hkept⟩ | ⟨path, text, hrenders⟩
    · exact .inl hkept
    · rcases hrenders.writeEnds with ⟨-, -, hkept⟩ | ⟨hencode, hwrite, houtcome⟩ | ⟨-, -, hzero⟩
      · exact .inl hkept
      · exact .inr ⟨path, text, _, hrenders, hencode, houtcome,
          FileSystem.find?_write hwrite hrenders.noSeparator⟩
      · exact absurd hzero hcode
  · obtain ⟨houtcome, hfiles⟩ := hrenders.emptied hencode hwrite
    exact ⟨houtcome, hfiles ▸ FileSystem.find?_write hwrite hrenders.noSeparator⟩
  · rcases hruns.kept_or_renders with ⟨hnot, -⟩ | ⟨path, text, hrenders⟩
    · exact absurd hcode hnot
    · rcases hrenders.writeEnds with ⟨-, hnot, -⟩ | ⟨-, -, hraised⟩ | ⟨hencode, hwrite, -⟩
      · exact absurd hcode hnot
      · cases hcode.symm.trans hraised
      · refine ⟨path, text, _, hrenders, hencode, fun isSurrogate hutf8 => ?_,
          FileSystem.read_write hwrite hrenders.noSeparator,
          FileSystem.find?_write hwrite hrenders.noSeparator⟩
        rw [hutf8, Text.Encoding.encode_utf8_eq_ok_iff] at hencode
        rw [hencode.2, Text.Utf8.encode_toList]

/-- What runs may rely on: room for a few hundred calls, and UTF-8 for texts without surrogates. -/
def roomyHost : Host := ⟨Resolver.roomy, .utf8 fun _ => false⟩

/-- UTF-8 has the bytes of every such text. -/
lemma exists_encode_roomyHost (text : String) :
    ∃ bytes, roomyHost.encoding.encode text = .ok bytes :=
  ⟨_, Text.Encoding.encode_utf8_eq_ok_iff.2 ⟨fun _ _ => rfl, rfl⟩⟩

/-- The same, with a character that stands for a surrogate. -/
def surrogateHost : Host := ⟨Resolver.roomy, .utf8 (· == '\uFFFF')⟩

/-- The arguments of a run in which the program and the output are named. -/
def plainArguments (program output : String) : Arguments where
  extension := .text "c"
  binary := .text program
  compiler := none
  std := none
  opt := .text "O0"
  tests := ["tests"]
  entry := none
  links := []
  directory := .text "."
  output := .text output
  verbose := false
  debug := false

/-- The settings of that run. -/
def plainConfig (program : String) : Config :=
  ⟨"gcc", "c", program, "c99", "O0", ["tests"], "main"⟩

/-- A directory with a source, and with the Makefile of an earlier run. -/
def staleTree : FileSystem where
  entries := [(["main.c"], .file []), (["make"], .file [111, 108, 100])]
  unique := by decide
  valid := by decide
  rooted := by
    simp only [List.forall_mem_cons]
    exact ⟨⟨[], "main.c", rfl, by decide, .inl rfl⟩, ⟨[], "make", rfl, by decide, .inl rfl⟩,
      by simp⟩

/-- The resolver for that directory. -/
def staleResolver : Resolver := ⟨[], "c", .standard, Resolver.roomy⟩

/-- Its graph: one source that includes nothing. -/
def staleGraph : Graph := ⟨[("main.c", [])], []⟩

/-- That directory is resolved. -/
lemma resolve_staleTree : (staleResolver.resolve staleTree).result = .ok staleGraph := by
  cbv

/-- The Makefile of an earlier run can be written anew. -/
lemma exists_write_staleTree :
    ∃ files, staleTree.write [] (outputPath "." "make") [] = .ok files := by
  have hlocate : staleTree.locate [] true (outputPath "." "make") = .ok (.taken ["make"]) := by
    cbv
  have hfile : staleTree.find? ["make"] = some (.file [111, 108, 100]) := by
    cbv
  refine ⟨staleTree.place [] "make" (.file []), ?_⟩
  rw [FileSystem.write, hlocate]
  simp only [hfile]
  rfl

/-- The directory with the source has a Makefile for each name of the program. -/
lemma render_staleGraph (program : String) : Makefile.render staleGraph (plainConfig program) =
    .ok (Makefile.print (Makefile.lines staleGraph (plainConfig program))) := by
  have hcheck : Makefile.check (staleGraph.sources (plainConfig program).extension)
      (Makefile.testSources staleGraph (plainConfig program)) (plainConfig program) = .ok () := by
    cbv
  rw [Makefile.render, hcheck]

/-- A run in that directory comes to write the Makefile. -/
lemma renders_staleTree {program : String} (h : Config.ofSettings
    (plainArguments program "make").settings = .ok (plainConfig program)) :
    Renders surrogateHost staleTree [] (plainArguments program "make") (outputPath "." "make")
      (Makefile.print (Makefile.lines staleGraph (plainConfig program))) := by
  have hcreate : Resolver.create staleTree [] (.ofString ".") "c" (LibraryTable.standard.extend [])
      surrogateHost.nesting = .ok staleResolver := by
    cbv
  exact .mk h rfl rfl rfl hcreate resolve_staleTree (render_staleGraph program)

/-- A run can fail and change a file: where the name of the program is no text, the Makefile of an
earlier run is left empty. -/
theorem run_truncates : ∃ e,
    (run surrogateHost staleTree [] (plainArguments "\uFFFF" "make")).outcome =
      .error (.unencodable e) ∧
    staleTree.read [] (.ofString "make") = .ok [111, 108, 100] ∧
    (run surrogateHost staleTree [] (plainArguments "\uFFFF" "make")).files.read []
      (.ofString "make") = .ok [] := by
  have hconfig : Config.ofSettings (plainArguments "\uFFFF" "make").settings =
      .ok (plainConfig "\uFFFF") := by
    cbv
  have hprogram : '\uFFFF' ∈ (plainConfig "\uFFFF").program.toList := by decide
  have hlacks : surrogateHost.encoding.has '\uFFFF' = false := by decide
  obtain ⟨e, hencode⟩ := Makefile.exists_encode_error staleGraph _ hprogram hlacks
  obtain ⟨files, hwrite⟩ := exists_write_staleTree
  obtain ⟨houtcome, hfiles⟩ := (renders_staleTree hconfig).emptied hencode hwrite
  have hread := FileSystem.read_write hwrite noSeparator_outputPath
  have hpath : outputPath "." "make" = .ofString "make" := by
    cbv
  rw [hpath] at hread
  exact ⟨e, houtcome, by cbv, hfiles ▸ hread⟩

end CommandLine

end MakeDeps
