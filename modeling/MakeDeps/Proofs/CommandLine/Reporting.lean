import MakeDeps.Proofs.CommandLine.Effect
import MakeDeps.Proofs.FileSystem.Clean
import MakeDeps.Proofs.Resolver.FirstFailure

/-!
# What a run reports

A resolution ends with a graph, with a failure of a file or of the walk, or at a name with a NUL
character in an include. A run reports all failures but the last, and but that of a walk through
directories that are nested too deeply: `run_reports`.
-/

namespace MakeDeps

namespace Resolver

variable {r : Resolver} {fs : FileSystem} {file target : String} {failure : Failure}

/-- The failure is one of reading a file, or of finding what it includes. -/
inductive IsScanFailure : Failure → Prop
  | unreadable (file : String) (cause : Cause) : IsScanFailure (.resolve (.unreadable file cause))
  | missing (target file : String) : IsScanFailure (.resolve (.missing target file))
  | outside (target file : String) : IsScanFailure (.resolve (.outside target file))

/-- The first file that fails, in the order of the search, does so with this failure. -/
def FirstFails (r : Resolver) (fs : FileSystem) (failure : Failure) : Prop :=
  ∃ before file after, r.searchOrder fs = before ++ file :: after ∧
    (∀ earlier ∈ before, r.IsSound fs earlier) ∧ r.FileFails fs file failure

/-- The failure of a resolution is that of the first file that fails, or of the walk. -/
lemma result_eq_error_iff_or : (r.resolve fs).result = .error failure ↔
    r.FirstFails fs failure ∨ r.firstFailure? fs = none ∧ r.WalkFails fs failure := by
  rw [result_eq_error_iff, Option.or_eq_some_iff, firstFailure?_eq_some_iff, ← walkFails_iff,
    FirstFails]

/-- An include fails to be found, or for a NUL. -/
lemma IncludeFails.isScanFailure (h : r.IncludeFails fs file target failure) :
    IsScanFailure failure ∨ failure = .nul := by
  cases h with
  | missing _ => exact .inl (.missing target file)
  | outside _ _ => exact .inl (.outside target file)
  | nul _ => exact .inr rfl

/-- A file fails at reading, at an include, or for a NUL. -/
lemma FileFails.isScanFailure (h : r.FileFails fs file failure) :
    IsScanFailure failure ∨ failure = .nul := by
  cases h with
  | @unreadable cause _ => exact .inl (.unreadable file cause)
  | line _ _ _ hinclude => exact hinclude.isScanFailure

/-- A file that has been read has no NUL in its path. -/
lemma noNul_path {content : List UInt8} (h : fs.read [] (r.path file) = .ok content) :
    NoNul (r.path file).parts := by
  cases hlocate : fs.locate [] false (r.path file) with
  | error fault =>
    rw [FileSystem.read, hlocate] at h
    cases h
  | ok place =>
    obtain ⟨hnul, -, -⟩ := FileSystem.locate_eq_ok_iff.1 hlocate
    exact fun part hpart hmem => hnul (Path.mem_text_of_mem_part hpart hmem (by decide))

/-- An include comes to a NUL because there is one in its text. -/
lemma IncludeFails.mem_nul (h : r.IncludeFails fs file target .nul)
    (hpath : NoNul (r.path file).parts) : '\x00' ∈ target.toList := by
  cases h with
  | nul hcanonical =>
    by_contra htarget
    apply FileSystem.canonical_ne_nul ?_ hcanonical
    have htargetParts : NoNul (Path.ofString target).parts := fun part hpart hmem =>
      htarget (Path.mem_of_mem_names (List.mem_filter.1 hpart).1 hmem).2
    have hparent : NoNul (r.path file).parent.parts := fun part hpart =>
      hpath part ((List.dropLast_prefix (r.path file).parts).subset hpart)
    unfold includePath Path.join
    split
    · exact hparent.append htargetParts
    · exact htargetParts

/-- A file that fails for a NUL includes a name with one. -/
lemma FileFails.exists_nul (h : r.FileFails fs file .nul) :
    ∃ content target, fs.read [] (r.path file) = .ok content ∧
      .localFile target ∈ Directive.ofContent content ∧ '\x00' ∈ target.toList := by
  cases h with
  | @line content _ target _ _ hread hsplit _ hinclude =>
    refine ⟨content, target, hread, ?_, hinclude.mem_nul (noNul_path hread)⟩
    rw [← mem_localTargets, hsplit]
    simp

/-- A walk ends where directories are nested too deeply or the system refuses an access. -/
lemma Blocks.eq_or_exists {root : Location} {names : List String}
    (h : r.Blocks fs root names failure) : failure = .tooDeep ∨ ∃ e, failure = .access e := by
  cases h with
  | tooDeep _ _ => exact .inl rfl
  | tooLong _ _ => exact .inr ⟨_, rfl⟩

/-- Without a NUL in the root, the walk fails only where directories are nested too deeply or the
system refuses an access. -/
lemma WalkFails.eq_or_exists (h : r.WalkFails fs failure) (hroot : NoNul r.root) :
    failure = .tooDeep ∨ ∃ e, failure = .access e := by
  cases h with
  | @root fault hopen =>
    cases fault with
    | refused cause => exact .inr ⟨_, rfl⟩
    | nul =>
      have htext := FileSystem.openDirectory_eq_nul hopen
      obtain ⟨name, hname, hmem⟩ := (Path.mem_text_root (by decide)).1 htext
      exact absurd hmem (hroot name hname)
  | blocked _ _ _ hblocks => exact hblocks.eq_or_exists

/-- A resolution fails for a NUL exactly where the first failure is for one. -/
lemma result_eq_nul_iff (hroot : NoNul r.root) :
    (r.resolve fs).result = .error .nul ↔ r.FirstFails fs .nul := by
  rw [result_eq_error_iff_or]
  constructor
  · rintro (hfirst | ⟨-, hwalk⟩)
    · exact hfirst
    · rcases hwalk.eq_or_exists hroot with hdeep | ⟨e, he⟩
      · cases hdeep
      · cases he
  · exact .inl

/-- Failures of scans are reported. -/
lemma IsScanFailure.isReported (h : IsScanFailure failure) : failure.isReported = true := by
  cases h with
  | unreadable _ _ => rfl
  | missing _ _ => rfl
  | outside _ _ => rfl

/-- A resolution fails in a scan, for a NUL, or as the walk does. -/
lemma isScanFailure_of_result (h : (r.resolve fs).result = .error failure) :
    IsScanFailure failure ∨ failure = .nul ∨ r.WalkFails fs failure := by
  rcases result_eq_error_iff_or.1 h with ⟨_, _, _, -, -, hfile⟩ | ⟨-, hwalk⟩
  · rcases hfile.isScanFailure with hscan | hnul
    · exact .inl hscan
    · exact .inr (.inl hnul)
  · exact .inr (.inr hwalk)

end Resolver

namespace CommandLine
open Resolver

variable {host : Host} {fs : FileSystem} {cwd : Location} {project : Project} {output : Path}
  {a : Arguments} {report : Report} {failure : Failure}

/-- A failure that ends a run without being reported. -/
lemma outcome_fail_eq_error {cause : Failure} {log : List Event}
    (h : (fail cause log fs).outcome = .error failure) :
    failure = cause ∧ cause.isReported = false := by
  unfold fail at h
  split at h
  · cases h
  · next hreported =>
    cases h
    exact ⟨rfl, by simpa using hreported⟩

/-- A failure to read the links that is not reported is for a link without its value. -/
lemma eq_noValue_of_links {links : List Value} (h : links.mapM readLink = .error failure)
    (hreported : failure.isReported = false) :
    .nothing ∈ links ∧ failure = .noValue .link := by
  rw [Search.mapM_eq_error_iff, Search.findSome?_failure?_eq_some_iff] at h
  obtain ⟨before, link, after, rfl, -, hlink⟩ := h
  cases link with
  | nothing =>
    cases hlink
    exact ⟨by simp, rfl⟩
  | text spec =>
    cases hpair : readPair spec with
    | ok pair =>
      simp only [readLink, hpair, Except.mapError] at hlink
      cases hlink
    | error e =>
      simp only [readLink, hpair, Except.mapError] at hlink
      cases hlink
      cases hreported

/-- That there is no resolver is reported. -/
lemma isReported_of_create {root : Path} {extension : String} {libraries : LibraryTable}
    {nesting : Nesting}
    (h : Resolver.create fs cwd root extension libraries nesting = .error failure) :
    failure.isReported = true := by
  unfold Resolver.create at h
  split at h
  · cases h
    rfl
  · cases h
    rfl
  · cases h

/-- The root of a resolver has no NUL in it. -/
lemma noNul_of_create {root : Path} {extension : String} {libraries : LibraryTable}
    {nesting : Nesting} {r : Resolver}
    (h : Resolver.create fs cwd root extension libraries nesting = .ok r) : NoNul r.root := by
  unfold Resolver.create at h
  split at h
  · cases h
  · cases h
  · next hdirectory =>
    cases h
    exact FileSystem.noNul_settled hdirectory

/-- Of the failures of a resolution only that of a NUL is not reported, and that of a walk through
directories that are nested too deeply. -/
lemma isReported_of_result {r : Resolver} (hroot : NoNul r.root)
    (hresolve : (r.resolve fs).result = .error failure) :
    failure.isReported = true ∨ failure = .nul ∨ failure = .tooDeep ∧ r.WalkFails fs .tooDeep := by
  rcases isScanFailure_of_result hresolve with hscan | hnul | hwalk
  · exact .inl hscan.isReported
  · exact .inr (.inl hnul)
  · rcases hwalk.eq_or_exists hroot with rfl | ⟨e, rfl⟩
    · exact .inr (.inr ⟨rfl, hwalk⟩)
    · exact .inl rfl

/-- What ends the building of a project without being reported: a NUL in an include or in the output
path, a walk that goes too deep, or a text that cannot be encoded. -/
inductive BuildEscapes (fs : FileSystem) (cwd : Location) (project : Project) (output : Path) :
    Failure → Prop
  | nulInclude {r : Resolver} :
    project.resolver fs cwd = .ok r →
    r.FirstFails fs .nul →
    BuildEscapes fs cwd project output .nul
  | tooDeep {r : Resolver} :
    project.resolver fs cwd = .ok r →
    r.WalkFails fs .tooDeep →
    BuildEscapes fs cwd project output .tooDeep
  | nulOutput {r : Resolver} :
    project.resolver fs cwd = .ok r →
    '\x00' ∈ output.text.toList →
    BuildEscapes fs cwd project output .nul
  | unencodable {r : Resolver} {g : Graph} {text : String} {e : Text.EncodingError} :
    project.resolver fs cwd = .ok r →
    (r.resolve fs).result = .ok g →
    Makefile.render g project.config = .ok text →
    project.host.encoding.encode text = .error e →
    BuildEscapes fs cwd project output (.unencodable e)

/-- The building of a project ends without being reported in one of these ways only. -/
lemma Builds.escapes (h : Builds fs cwd project output report)
    (houtcome : report.outcome = .error failure) :
    BuildEscapes fs cwd project output failure := by
  cases h with
  | noResolver hresolver =>
    obtain ⟨-, hreported⟩ := outcome_fail_eq_error houtcome
    rw [isReported_of_create hresolver] at hreported
    cases hreported
  | @unresolved r cause hresolver hresolve =>
    obtain ⟨rfl, hreported⟩ := outcome_fail_eq_error houtcome
    have hroot := noNul_of_create hresolver
    rcases isReported_of_result hroot hresolve with htrue | rfl | ⟨rfl, hwalk⟩
    · rw [htrue] at hreported
      cases hreported
    · exact .nulInclude hresolver ((result_eq_nul_iff hroot).1 hresolve)
    · exact .tooDeep hresolver hwalk
  | unrendered _ _ _ _ =>
    obtain ⟨-, hreported⟩ := outcome_fail_eq_error houtcome
    cases hreported
  | @unwritten r _ _ fault _ hresolver _ _ hwrite _ =>
    obtain ⟨rfl, hreported⟩ := outcome_fail_eq_error houtcome
    cases fault with
    | nul => exact .nulOutput hresolver (FileSystem.write_eq_nul hwrite)
    | refused cause => cases hreported
  | unencoded hresolver hresolve hrender hencode _ _ =>
    obtain ⟨rfl, -⟩ := outcome_fail_eq_error houtcome
    exact .unencodable hresolver hresolve hrender hencode
  | written _ _ _ _ _ _ => cases houtcome

/-- The arguments give this resolver, and the path to write to. -/
inductive Creates (host : Host) (fs : FileSystem) (cwd : Location) (a : Arguments) :
    Resolver → Path → Prop
  | mk {config : Config} {pairs : List (String × String)} {directory output : String}
      {r : Resolver} :
    Config.ofSettings a.settings = .ok config →
    a.links.mapM readLink = .ok pairs →
    a.directory = .text directory →
    a.output = .text output →
    Resolver.create fs cwd (.ofString directory) config.extension
      (LibraryTable.standard.extend pairs) host.nesting = .ok r →
    Creates host fs cwd a r (outputPath directory output)

/-- What ends a run without being reported: a value that is missing, a NUL in an include or in the
output path, a walk that goes too deep, or a text that cannot be encoded. -/
inductive Escapes (host : Host) (fs : FileSystem) (cwd : Location) (a : Arguments) :
    Failure → Prop
  | noValue {missing : MissingValue} :
    a.directory = .nothing ∨ a.output = .nothing ∨ .nothing ∈ a.links →
    Escapes host fs cwd a (.noValue missing)
  | nulInclude {r : Resolver} {path : Path} :
    Creates host fs cwd a r path →
    r.FirstFails fs .nul →
    Escapes host fs cwd a .nul
  | tooDeep {r : Resolver} {path : Path} :
    Creates host fs cwd a r path →
    r.WalkFails fs .tooDeep →
    Escapes host fs cwd a .tooDeep
  | nulOutput {r : Resolver} {path : Path} :
    Creates host fs cwd a r path →
    '\x00' ∈ path.text.toList →
    Escapes host fs cwd a .nul
  | unencodable {path : Path} {text : String} {e : Text.EncodingError} :
    Renders host fs cwd a path text →
    host.encoding.encode text = .error e →
    Escapes host fs cwd a (.unencodable e)

/-- A run ends without being reported in one of these ways only. -/
lemma Runs.escapes (h : Runs host fs cwd a report) (houtcome : report.outcome = .error failure) :
    Escapes host fs cwd a failure := by
  cases h with
  | noConfig _ =>
    obtain ⟨-, hreported⟩ := outcome_fail_eq_error houtcome
    cases hreported
  | noLinks hlinks =>
    obtain ⟨rfl, hreported⟩ := outcome_fail_eq_error houtcome
    obtain ⟨hmem, rfl⟩ := eq_noValue_of_links hlinks hreported
    exact .noValue (.inr (.inr hmem))
  | @noValue missing hvalue =>
    obtain ⟨rfl, -⟩ := outcome_fail_eq_error houtcome
    exact .noValue (hvalue.imp_right .inl)
  | built hconfig hlinks hdirectory houtput hbuilds =>
    have hcreates {r : Resolver} (hcreate : Resolver.create fs cwd _ _ _ host.nesting = .ok r) :
        Creates host fs cwd a r _ := .mk hconfig hlinks hdirectory houtput hcreate
    cases hbuilds.escapes houtcome with
    | nulInclude hcreate hfirst => exact .nulInclude (hcreates hcreate) hfirst
    | tooDeep hcreate hwalk => exact .tooDeep (hcreates hcreate) hwalk
    | nulOutput hcreate hnul => exact .nulOutput (hcreates hcreate) hnul
    | unencodable hcreate hresolve hrender hencode =>
      exact .unencodable (.mk hconfig hlinks hdirectory houtput hcreate hresolve hrender) hencode

/-- There is no NUL in the root of the resolver that arguments give. -/
lemma Creates.noNul {r : Resolver} (h : Creates host fs cwd a r output) : NoNul r.root := by
  cases h with
  | mk _ _ _ _ hcreate => exact noNul_of_create hcreate

/-- A resolution that fails ends the run. -/
lemma Creates.run_eq_fail {r : Resolver} (h : Creates host fs cwd a r output)
    (hresolve : (r.resolve fs).result = .error failure) :
    run host fs cwd a = fail failure (r.resolve fs).log fs := by
  cases h with
  | mk hconfig hlinks hdirectory houtput hcreate =>
    simp [run, hconfig, hlinks, hdirectory, houtput, build, Project.resolve, Project.resolver,
      Project.new, hcreate, hresolve]

/-- A run with another exit code than 0 ends with exit code 1, and says why at last. -/
lemma Runs.exists_failed {code : Nat} (h : Runs host fs cwd a report)
    (houtcome : report.outcome = .ok code) (hcode : code ≠ 0) :
    code = 1 ∧ ∃ cause log, report.log = log ++ [.failed cause] := by
  rcases h.fails_or_succeeds with ⟨cause, log, files, -, rfl⟩ | ⟨hzero, -⟩
  · unfold fail at houtcome ⊢
    split at houtcome
    · next hreported =>
      cases houtcome
      rw [if_pos hreported]
      exact ⟨rfl, cause, log, rfl⟩
    · cases houtcome
  · cases hzero.symm.trans houtcome
    exact absurd rfl hcode

/-- A root that is a directory has a resolver. It ends with a graph, or with a failure to read a
file or to find what it includes, or where the walk for sources is refused an access (for the length
of the path, if the root is settled at a directory) or comes to directories that are nested too
deeply, or with the failure of a NUL. This is where the first file that fails does so at an include
of a name with a NUL, which the text of the include then holds. A run reports these failures, at the
end of the log and with exit code 1, except the last two, which end it without an exit code. Nothing
else in what includes say does so; apart from them, a run escapes for an option without its value,
an output path with a NUL, directories that are nested too deeply, and a text that cannot be
encoded. -/
theorem run_reports (host : Host) (fs : FileSystem) (cwd : Location) (a : Arguments) :
    (∀ root extension libraries nesting, fs.isDirectory cwd root = .ok true →
      ∃ r, Resolver.create fs cwd root extension libraries nesting = .ok r ∧
        ((∃ g, (r.resolve fs).result = .ok g) ∨
          (∃ failure, (r.resolve fs).result = .error failure ∧ IsScanFailure failure) ∨
          (∃ e, (r.resolve fs).result = .error (.access e) ∧ r.WalkFails fs (.access e) ∧
            (fs.find? r.root = some .directory → e.cause = .nameTooLong)) ∨
          ((r.resolve fs).result = .error .tooDeep ∧ r.WalkFails fs .tooDeep) ∨
          (r.resolve fs).result = .error .nul) ∧
        ((r.resolve fs).result = .error .nul ↔ r.FirstFails fs .nul)) ∧
    (∀ r : Resolver, r.FirstFails fs .nul → ∃ file content target, file ∈ r.searchOrder fs ∧
      fs.read [] (r.path file) = .ok content ∧
      .localFile target ∈ Directive.ofContent content ∧ '\x00' ∈ target.toList) ∧
    (∀ r path failure, Creates host fs cwd a r path → (r.resolve fs).result = .error failure →
      run host fs cwd a =
        if failure = .nul ∨ failure = .tooDeep then
          ⟨.error failure, (r.resolve fs).log, fs, none⟩
        else ⟨.ok 1, (r.resolve fs).log ++ [.failed failure], fs, none⟩) ∧
    (∀ code, (run host fs cwd a).outcome = .ok code → code = 0 ∨
      code = 1 ∧ ∃ failure log, (run host fs cwd a).log = log ++ [.failed failure]) ∧
    (∀ failure, (run host fs cwd a).outcome = .error failure → Escapes host fs cwd a failure) := by
  refine ⟨fun root extension libraries nesting hdirectory => ?_, fun r hnul => ?_,
    fun r path failure hcreates hresolve => ?_, fun code hcode => ?_,
    fun failure => (runs_run host fs cwd a).escapes⟩
  · obtain ⟨r, hcreate⟩ : ∃ r, Resolver.create fs cwd root extension libraries nesting = .ok r := by
      simp [Resolver.create, hdirectory]
    have hroot := noNul_of_create hcreate
    refine ⟨r, hcreate, ?_, result_eq_nul_iff hroot⟩
    cases hresolve : (r.resolve fs).result with
    | ok g => exact .inl ⟨g, rfl⟩
    | error failure =>
      rcases isScanFailure_of_result hresolve with hscan | rfl | hwalk
      · exact .inr (.inl ⟨failure, rfl, hscan⟩)
      · exact .inr (.inr (.inr (.inr rfl)))
      · rcases hwalk.eq_or_exists hroot with rfl | ⟨e, rfl⟩
        · exact .inr (.inr (.inr (.inl ⟨rfl, hwalk⟩)))
        · refine .inr (.inr (.inl ⟨e, rfl, hwalk, fun hfind => ?_⟩))
          obtain ⟨names, -, hblocks⟩ := hwalk.exists_names hfind
          cases hblocks with
          | tooLong _ _ => rfl
  · obtain ⟨before, file, after, horder, -, hfile⟩ := hnul
    obtain ⟨content, target, hread, hmem, htarget⟩ := hfile.exists_nul
    exact ⟨file, content, target, by simp [horder], hread, hmem, htarget⟩
  · rw [hcreates.run_eq_fail hresolve, fail]
    rcases isReported_of_result hcreates.noNul hresolve with hreported | rfl | ⟨rfl, -⟩
    · have hescapes : ¬(failure = .nul ∨ failure = .tooDeep) := by
        rintro (rfl | rfl)
        · cases hreported
        · cases hreported
      rw [if_pos hreported, if_neg hescapes]
    · rfl
    · rfl
  · by_cases hzero : code = 0
    · exact .inl hzero
    · exact .inr ((runs_run host fs cwd a).exists_failed hcode hzero)

/-- A source that includes a name with a NUL. -/
def nulTree : FileSystem where
  entries := [(["main.c"], .file (Text.Utf8.encode "#include \"a\x00b.h\"".toList))]
  unique := by decide
  valid := by decide
  rooted := by
    simp only [List.forall_mem_cons]
    exact ⟨⟨[], "main.c", rfl, by decide, .inl rfl⟩, by simp⟩

/-- The resolver for the source that includes a name with a NUL. -/
def nulResolver : Resolver := ⟨[], "c", .standard, roomy⟩

set_option maxRecDepth 4000 in
/-- The source whose include has a NUL in its name fails for it. -/
lemma resolve_nulTree : (nulResolver.resolve nulTree).result = .error .nul := by
  cbv

/-- The failure of a NUL in an include is not reported: it ends the run without an exit code. -/
theorem run_escapes : nulTree.isDirectory [] (.ofString ".") = .ok true ∧
    Options.parse ["-e", "c", "-b", "app"] = .ok (plainArguments "app" "Makefile") ∧
    (nulResolver.resolve nulTree).result = .error .nul ∧
    (run roomyHost nulTree [] (plainArguments "app" "Makefile")).outcome = .error .nul := by
  have hdirectory : nulTree.isDirectory [] (.ofString ".") = .ok true := by
    cbv
  have hconfig : Config.ofSettings (plainArguments "app" "Makefile").settings =
      .ok ⟨"gcc", "c", "app", "c99", "O0", ["tests"], "main"⟩ := by
    cbv
  have hcreate : Resolver.create nulTree [] (.ofString ".") "c" (LibraryTable.standard.extend [])
      roomyHost.nesting = .ok nulResolver := by
    cbv
  have hcreates : Creates roomyHost nulTree [] (plainArguments "app" "Makefile") nulResolver
      (outputPath "." "Makefile") := .mk hconfig rfl rfl rfl hcreate
  refine ⟨hdirectory, by cbv, resolve_nulTree, ?_⟩
  rw [hcreates.run_eq_fail resolve_nulTree]
  rfl

end CommandLine

end MakeDeps
