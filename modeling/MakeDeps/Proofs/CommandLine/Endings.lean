import MakeDeps.CommandLine
import MakeDeps.Proofs.FileSystem.Writing

/-!
# How a run ends

A run ends where the first thing goes wrong, or with a file written. `Builds` lists the ways in
which a project is built, `Runs` those in which a run ends; each of them says what is left behind.
Only if the text cannot be encoded, a run that fails has opened a file. What is logged before the
end is never an error (`IsQuiet`).
-/

namespace MakeDeps

/-- The last name of a path, read again, goes back to its place. -/
lemma Path.parent_join_ofString_name {p : Path} (h : ∀ part ∈ p.parts, IsPart part) :
    p.parent.join (.ofString p.name) = p := by
  by_cases hparts : p.parts = []
  · obtain ⟨anchor, parts⟩ := p
    cases hparts
    rfl
  · have hlast : p.name ∈ p.parts := by
      rw [name, List.getLastD_eq_getLast?, List.getLast?_eq_some_getLast hparts]
      exact List.getLast_mem hparts
    have hname : Path.ofString (Path.text ⟨.relative, [p.name]⟩) = ⟨.relative, [p.name]⟩ :=
      ofString_text (by simpa using h _ hlast)
    have htext : Path.text ⟨.relative, [p.name]⟩ = p.name := by
      simp [text, here, Anchor.text]
    rw [htext] at hname
    rw [hname, parent_join_name p hparts]

/-- No event of the log is an error. -/
def IsQuiet (log : List Event) : Prop :=
  ∀ event ∈ log, event.level ≠ .error

/-- Quiet logs one behind the other are quiet. -/
lemma IsQuiet.append {first second : List Event} (h : IsQuiet first) (hsecond : IsQuiet second) :
    IsQuiet (first ++ second) :=
  List.forall_mem_append.2 ⟨h, hsecond⟩

namespace Resolver

variable {r : Resolver} {fs : FileSystem}

/-- Looking up a library says nothing that is an error. -/
lemma isQuiet_addNeed {f : Findings} (h : IsQuiet f.log) (file : String) (need : String × String) :
    IsQuiet (f.addNeed file need).log := by
  unfold Findings.addNeed
  split
  · exact h
  · exact h.append (by simp [IsQuiet, Event.level])

/-- Putting a file down says nothing that is an error. -/
lemma isQuiet_addFile {f : Findings} (h : IsQuiet f.log) (file : String) (scan : Scan) :
    IsQuiet (f.addFile file scan).log := by
  have hneeds : ∀ (needs : List (String × String)) (f : Findings), IsQuiet f.log →
      IsQuiet (needs.foldl (Findings.addNeed file) f).log := by
    intro needs
    induction needs with
    | nil => exact fun _ h => h
    | cons need needs ih => exact fun f h => ih _ (isQuiet_addNeed h file need)
  exact hneeds scan.needs _ (h.append (by simp [IsQuiet, Event.level]))

/-- What is found in the opened files is no error. -/
lemma isQuiet_findings (opened : List String) : IsQuiet (r.findings fs opened).log := by
  have hfiles : ∀ (opened : List String) (f : Findings), IsQuiet f.log →
      IsQuiet (opened.foldl (fun f file => f.addFile file (r.scan fs file)) f).log := by
    intro opened
    induction opened with
    | nil => exact fun _ h => h
    | cons file opened ih => exact fun f h => ih _ (isQuiet_addFile h file (r.scan fs file))
  exact hfiles opened _ (by simp [IsQuiet])

/-- A resolution logs no errors. -/
lemma isQuiet_resolve : IsQuiet (r.resolve fs).log := by
  unfold resolve
  dsimp only
  split
  · exact isQuiet_findings _
  · exact (isQuiet_findings _).append (by simp [IsQuiet, Event.level])

end Resolver

namespace Project

variable {p : Project} {fs : FileSystem} {cwd : Location} {g : Graph} {output : Path}

/-- The ways in which the writing of a Makefile ends. -/
inductive MakefileEnds (p : Project) (fs : FileSystem) (cwd : Location) (g : Graph)
    (output : Path) : Effect Written → Prop
  | unrendered {e : GenerateError} :
    Makefile.render g p.config = .error e →
    MakefileEnds p fs cwd g output
      ⟨⟨.error (.generate e), Makefile.renderLog g p.config⟩, p, fs⟩
  | unwritten {text : String} {fault : Fault} :
    Makefile.render g p.config = .ok text →
    fs.write cwd output ((p.host.encoding.encode text).toOption.getD []) = .error fault →
    MakefileEnds p fs cwd g output
      ⟨⟨.error (.ofFault output.text fault), Makefile.renderLog g p.config⟩, p, fs⟩
  | unencoded {text : String} {e : Text.EncodingError} {files : FileSystem} :
    Makefile.render g p.config = .ok text →
    p.host.encoding.encode text = .error e →
    fs.write cwd output [] = .ok files →
    MakefileEnds p fs cwd g output
      ⟨⟨.error (.unencodable e), Makefile.renderLog g p.config⟩, p, files⟩
  | written {text : String} {bytes : List UInt8} {files : FileSystem} :
    Makefile.render g p.config = .ok text →
    p.host.encoding.encode text = .ok bytes →
    fs.write cwd output bytes = .ok files →
    MakefileEnds p fs cwd g output
      ⟨⟨.ok ⟨output, text⟩, Makefile.renderLog g p.config ++ [.generated output]⟩, p, files⟩

/-- The writing of a Makefile ends in one of these ways. -/
lemma makefileEnds_writeMakefile (p : Project) (fs : FileSystem) (cwd : Location) (g : Graph)
    (output : Path) : p.MakefileEnds fs cwd g output (p.writeMakefile fs cwd g output) := by
  cases hrender : Makefile.render g p.config with
  | error e =>
    simp only [writeMakefile, hrender]
    exact .unrendered hrender
  | ok text =>
    cases hencode : p.host.encoding.encode text with
    | error e =>
      simp only [writeMakefile, hrender, hencode, Except.toOption, Option.getD_none]
      cases hwrite : fs.write cwd output [] with
      | error fault => exact .unwritten hrender (by rw [hencode]; exact hwrite)
      | ok files => exact .unencoded hrender hencode hwrite
    | ok bytes =>
      simp only [writeMakefile, hrender, hencode, Except.toOption, Option.getD_some]
      cases hwrite : fs.write cwd output bytes with
      | error fault => exact .unwritten hrender (by rw [hencode]; exact hwrite)
      | ok files => exact .written hrender hencode hwrite

end Project

namespace CommandLine

variable {host : Host} {fs : FileSystem} {cwd : Location} {project : Project} {output : Path}
  {a : Arguments} {report : Report}

/-- The ways in which the building of a project ends. -/
inductive Builds (fs : FileSystem) (cwd : Location) (project : Project) (output : Path) :
    Report → Prop
  | noResolver {failure : Failure} :
    project.resolver fs cwd = .error failure →
    Builds fs cwd project output (fail failure [] fs)
  | unresolved {r : Resolver} {failure : Failure} :
    project.resolver fs cwd = .ok r →
    (r.resolve fs).result = .error failure →
    Builds fs cwd project output (fail failure (r.resolve fs).log fs)
  | unrendered {r : Resolver} {g : Graph} {e : GenerateError} {log : List Event} :
    project.resolver fs cwd = .ok r →
    (r.resolve fs).result = .ok g →
    Makefile.render g project.config = .error e →
    IsQuiet log →
    Builds fs cwd project output (fail (.generate e) log fs)
  | unwritten {r : Resolver} {g : Graph} {text : String} {fault : Fault} {log : List Event} :
    project.resolver fs cwd = .ok r →
    (r.resolve fs).result = .ok g →
    Makefile.render g project.config = .ok text →
    fs.write cwd output ((project.host.encoding.encode text).toOption.getD []) = .error fault →
    IsQuiet log →
    Builds fs cwd project output (fail (.ofFault output.text fault) log fs)
  | unencoded {r : Resolver} {g : Graph} {text : String} {e : Text.EncodingError}
      {files : FileSystem} {log : List Event} :
    project.resolver fs cwd = .ok r →
    (r.resolve fs).result = .ok g →
    Makefile.render g project.config = .ok text →
    project.host.encoding.encode text = .error e →
    fs.write cwd output [] = .ok files →
    IsQuiet log →
    Builds fs cwd project output (fail (.unencodable e) log files)
  | written {r : Resolver} {g : Graph} {text : String} {bytes : List UInt8} {files : FileSystem}
      {log : List Event} :
    project.resolver fs cwd = .ok r →
    (r.resolve fs).result = .ok g →
    Makefile.render g project.config = .ok text →
    project.host.encoding.encode text = .ok bytes →
    fs.write cwd output bytes = .ok files →
    IsQuiet log →
    Builds fs cwd project output ⟨.ok 0, log, files, some ⟨output, text⟩⟩

/-- Rendering logs no errors. -/
lemma isQuiet_renderLog (g : Graph) (c : Config) : IsQuiet (Makefile.renderLog g c) := by
  simp [IsQuiet, Makefile.renderLog, Event.level]

/-- Building a project ends in one of these ways. -/
lemma builds_build (h : ∀ part ∈ output.parts, Path.IsPart part) :
    Builds fs cwd project output (build fs cwd project output) := by
  have hpath := Path.parent_join_ofString_name h
  cases hresolver : project.resolver fs cwd with
  | error failure =>
    have hbuild : build fs cwd project output = fail failure [] fs := by
      simp [build, Project.resolve, hresolver]
    exact hbuild ▸ .noResolver hresolver
  | ok r =>
    cases hresolve : (r.resolve fs).result with
    | error failure =>
      have hbuild : build fs cwd project output = fail failure (r.resolve fs).log fs := by
        simp [build, Project.resolve, hresolver, hresolve]
      exact hbuild ▸ .unresolved hresolver hresolve
    | ok g =>
      have hlog : IsQuiet ((r.resolve fs).log ++ Makefile.renderLog g project.config) :=
        Resolver.isQuiet_resolve.append (isQuiet_renderLog g project.config)
      -- what is left is to write the Makefile of the graph, which the project keeps now
      have hends := ({ project with graph := some g } : Project).makefileEnds_writeMakefile fs cwd g
        output
      have hgenerate : ({ project with graph := some g } : Project).generate fs cwd
          (.makefile output.name) output.parent =
            ({ project with graph := some g } : Project).writeMakefile fs cwd g output := by
        simp [Project.generate, Project.generateNow, Generator.requireGraph, hpath]
      simp only [build, Project.resolve, hresolver, hresolve, hgenerate]
      generalize ({ project with graph := some g } : Project).writeMakefile fs cwd g output = made
        at hends
      cases hends with
      | unrendered hrender => exact .unrendered hresolver hresolve hrender hlog
      | unwritten hrender hwrite => exact .unwritten hresolver hresolve hrender hwrite hlog
      | unencoded hrender hencode hwrite =>
        exact .unencoded hresolver hresolve hrender hencode hwrite hlog
      | written hrender hencode hwrite =>
        have hgenerated : IsQuiet ((r.resolve fs).log ++
            (Makefile.renderLog g project.config ++ [.generated output])) := by
          rw [← List.append_assoc]
          exact hlog.append (by simp [IsQuiet, Event.level])
        exact .written hresolver hresolve hrender hencode hwrite hgenerated

/-- The path of the Makefile: the output, as seen from the directory. -/
def outputPath (directory output : String) : Path :=
  (Path.ofString directory).join (.ofString output)

/-- The parts of the output path are parts of paths. -/
lemma isPart_outputPath (directory output : String) :
    ∀ part ∈ (outputPath directory output).parts, Path.IsPart part := by
  unfold outputPath Path.join
  split
  · rw [List.forall_mem_append]
    exact ⟨fun _ => Path.isPart_of_mem_parts, fun _ => Path.isPart_of_mem_parts⟩
  · exact fun _ => Path.isPart_of_mem_parts

/-- No part of the output path has a separator in it. -/
lemma noSeparator_outputPath {directory output : String} :
    ∀ part ∈ (outputPath directory output).parts, '/' ∉ part.toList :=
  fun part hpart => (isPart_outputPath directory output part hpart).2.2

/-- The ways in which a run ends. -/
inductive Runs (host : Host) (fs : FileSystem) (cwd : Location) (a : Arguments) : Report → Prop
  | noConfig {e : ConfigError} :
    Config.ofSettings a.settings = .error e →
    Runs host fs cwd a (fail (.config e) [] fs)
  | noLinks {failure : Failure} :
    a.links.mapM readLink = .error failure →
    Runs host fs cwd a (fail failure [] fs)
  | noValue {missing : MissingValue} :
    a.directory = .nothing ∨ a.output = .nothing →
    Runs host fs cwd a (fail (.noValue missing) [] fs)
  | built {config : Config} {pairs : List (String × String)} {directory output : String}
      {report : Report} :
    Config.ofSettings a.settings = .ok config →
    a.links.mapM readLink = .ok pairs →
    a.directory = .text directory →
    a.output = .text output →
    Builds fs cwd (.new (.ofString directory) config (LibraryTable.standard.extend pairs) host)
      (outputPath directory output) report →
    Runs host fs cwd a report

/-- A run ends in one of these ways. -/
lemma runs_run (host : Host) (fs : FileSystem) (cwd : Location) (a : Arguments) :
    Runs host fs cwd a (run host fs cwd a) := by
  unfold run
  cases hconfig : Config.ofSettings a.settings with
  | error e => exact .noConfig hconfig
  | ok config =>
    cases hlinks : a.links.mapM readLink with
    | error failure => exact .noLinks hlinks
    | ok pairs =>
      cases hdirectory : a.directory with
      | nothing => exact .noValue (.inl hdirectory)
      | text directory =>
        cases houtput : a.output with
        | nothing => exact .noValue (.inr houtput)
        | text output =>
          exact .built hconfig hlinks hdirectory houtput (builds_build (isPart_outputPath _ _))

/-- The building of a project fails, or it succeeds. If it fails, the files are as they were, or the
text cannot be encoded and an empty file has been written. -/
lemma Builds.fails_or_succeeds (h : Builds fs cwd project output report) :
    (∃ failure log files, IsQuiet log ∧ report = fail failure log files ∧
      (files = fs ∨ ∃ e, failure = .unencodable e ∧ fs.write cwd output [] = .ok files)) ∨
      report.outcome = .ok 0 ∧ IsQuiet report.log := by
  cases h with
  | noResolver _ => exact .inl ⟨_, [], _, by simp [IsQuiet], rfl, .inl rfl⟩
  | unresolved _ _ => exact .inl ⟨_, _, _, Resolver.isQuiet_resolve, rfl, .inl rfl⟩
  | unrendered _ _ _ hlog => exact .inl ⟨_, _, _, hlog, rfl, .inl rfl⟩
  | unwritten _ _ _ _ hlog => exact .inl ⟨_, _, _, hlog, rfl, .inl rfl⟩
  | unencoded _ _ _ _ hwrite hlog => exact .inl ⟨_, _, _, hlog, rfl, .inr ⟨_, rfl, hwrite⟩⟩
  | written _ _ _ _ _ hlog => exact .inr ⟨rfl, hlog⟩

/-- A run fails, or it succeeds. What it has logged until then is no error. -/
lemma Runs.fails_or_succeeds (h : Runs host fs cwd a report) :
    (∃ failure log files, IsQuiet log ∧ report = fail failure log files) ∨
      report.outcome = .ok 0 ∧ IsQuiet report.log := by
  cases h with
  | noConfig _ => exact .inl ⟨_, [], _, by simp [IsQuiet], rfl⟩
  | noLinks _ => exact .inl ⟨_, [], _, by simp [IsQuiet], rfl⟩
  | noValue _ => exact .inl ⟨_, [], _, by simp [IsQuiet], rfl⟩
  | built _ _ _ _ hbuilds =>
    refine hbuilds.fails_or_succeeds.imp_left ?_
    rintro ⟨failure, log, files, hlog, rfl, -⟩
    exact ⟨failure, log, files, hlog, rfl⟩

end CommandLine

end MakeDeps
