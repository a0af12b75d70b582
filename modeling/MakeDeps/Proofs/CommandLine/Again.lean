import MakeDeps.Proofs.CommandLine.Effect
import MakeDeps.Proofs.CommandLine.Reporting
import MakeDeps.Proofs.Resolver.Added

/-!
# Running twice

A run that follows a run with the same arguments finds the file that the first one wrote. If this
file is neither a source nor part of the graph, the second run leaves all files as they are
(`run_again`). It succeeds, too, unless the walk for sources cannot look at the new file
(`run_again_fails`).
-/

namespace MakeDeps

/-- A new file does not change the resolver that is made for a path. -/
lemma Resolver.create_of_addsFiles {fs fs' : FileSystem} {cwd : Location} {path : Path}
    {extension : String} {libraries : LibraryTable} {nesting : Nesting} {r : Resolver}
    (h : fs.AddsFiles fs') (hcreate : create fs cwd path extension libraries nesting = .ok r) :
    create fs' cwd path extension libraries nesting = .ok r := by
  unfold create at hcreate ⊢
  split at hcreate
  · cases hcreate
  · cases hcreate
  · next hdirectory => rw [h.isDirectory hdirectory, h.settled, hcreate]

namespace CommandLine
open Resolver

/-- The run with these arguments finds the graph and writes its Makefile to the place. -/
inductive Writes (host : Host) (fs : FileSystem) (cwd : Location) (a : Arguments) :
    Resolver → Graph → Place → Prop
  | mk {config : Config} {pairs : List (String × String)} {directory output : String}
      {r : Resolver} {g : Graph} {text : String} {bytes : List UInt8} {place : Place}
      {files : FileSystem} :
    Config.ofSettings a.settings = .ok config →
    a.links.mapM readLink = .ok pairs →
    a.directory = .text directory →
    a.output = .text output →
    Resolver.create fs cwd (.ofString directory) config.extension
      (LibraryTable.standard.extend pairs) host.nesting = .ok r →
    (r.resolve fs).result = .ok g →
    Makefile.render g config = .ok text →
    host.encoding.encode text = .ok bytes →
    fs.locate cwd true (outputPath directory output) = .ok place →
    fs.write cwd (outputPath directory output) bytes = .ok files →
    Writes host fs cwd a r g place

/-- The report of the second one of two runs with the same arguments. -/
def runAgain (host : Host) (fs : FileSystem) (cwd : Location) (a : Arguments) : Report :=
  run host (run host fs cwd a).files cwd a

variable {host : Host} {fs : FileSystem} {cwd : Location} {project : Project} {output : Path}
  {a : Arguments} {report : Report} {r : Resolver} {g : Graph} {place : Place}

/-- A run ends with exit code 0 if, and only if, it finds a graph and writes its Makefile. -/
lemma outcome_eq_zero_iff :
    (run host fs cwd a).outcome = .ok 0 ↔ ∃ r g place, Writes host fs cwd a r g place := by
  constructor
  · intro hcode
    rcases (runs_run host fs cwd a).kept_or_renders with ⟨hnot, -⟩ | ⟨path, text, hrenders⟩
    · exact absurd hcode hnot
    · rcases hrenders.writeEnds with ⟨-, hnot, -⟩ | ⟨-, -, hraised⟩ | ⟨hencode, hwrite, -⟩
      · exact absurd hcode hnot
      · cases hcode.symm.trans hraised
      · cases hrenders with
        | mk hconfig hlinks hdirectory houtput hcreate hresolve hrender =>
          obtain ⟨place, hlocate, -, -⟩ := FileSystem.find?_write hwrite noSeparator_outputPath
          exact ⟨_, _, place, .mk hconfig hlinks hdirectory houtput hcreate hresolve hrender hencode
            hlocate hwrite⟩
  · rintro ⟨r, g, place, hwrites⟩
    cases hwrites with
    | mk hconfig hlinks hdirectory houtput hcreate hresolve hrender hencode _ hwrite =>
      exact ((Renders.mk hconfig hlinks hdirectory houtput hcreate hresolve hrender).written
        hencode hwrite).1

namespace Writes

/-- The file that is written may be apart from what the run has read. -/
lemma isApart (h : Writes host fs cwd a r g place)
    (hkeys : ∀ file ∈ g.files, fs.locate [] false (r.path file) ≠ .ok (.taken place.location))
    (hsource : ¬r.IsScanRoot fs place.location) :
    r.IsApart fs (run host fs cwd a).files g place.location := by
  cases h with
  | mk hconfig hlinks hdirectory houtput hcreate hresolve hrender hencode hlocate hwrite =>
    rw [((Renders.mk hconfig hlinks hdirectory houtput hcreate hresolve hrender).written
      hencode hwrite).2]
    obtain ⟨place', hlocate', hplace, hwritten⟩ :=
      FileSystem.find?_write hwrite noSeparator_outputPath
    cases hlocate.symm.trans hlocate'
    refine ⟨hresolve, FileSystem.addsFiles_of_written hplace hwritten, fun other hother => ?_, ?_,
      hkeys, hsource⟩
    · rw [hwritten, if_neg hother]
    · rw [FileSystem.isFile_iff, hwritten, if_pos rfl]
      exact ⟨_, rfl⟩

/-- The second run writes the same text to the same place, if it finds the same graph. -/
lemma runAgain_eq (h : Writes host fs cwd a r g place)
    (hadds : fs.AddsFiles (run host fs cwd a).files)
    (hresolve' : (r.resolve (run host fs cwd a).files).result = .ok g) :
    (runAgain host fs cwd a).outcome = .ok 0 ∧
    ∀ loc, (runAgain host fs cwd a).files.find? loc = (run host fs cwd a).files.find? loc := by
  cases h with
  | mk hconfig hlinks hdirectory houtput hcreate hresolve hrender hencode _ hwrite =>
    obtain ⟨-, hfiles⟩ :=
      (Renders.mk hconfig hlinks hdirectory houtput hcreate hresolve hrender).written hencode hwrite
    rw [runAgain]
    rw [hfiles] at hadds hresolve' ⊢
    obtain ⟨files', hwrite', hsame⟩ := FileSystem.exists_write_again hwrite noSeparator_outputPath
    obtain ⟨hcode, hfiles'⟩ := (Renders.mk hconfig hlinks hdirectory houtput
      (Resolver.create_of_addsFiles hadds hcreate) hresolve' hrender).written hencode hwrite'
    exact ⟨hcode, fun loc => by rw [hfiles', hsame]⟩

/-- The second run ends with exit code 1 if the walk for sources is refused an access now. -/
lemma runAgain_fails {e : AccessError} (h : Writes host fs cwd a r g place)
    (hadds : fs.AddsFiles (run host fs cwd a).files)
    (hresolve' : (r.resolve (run host fs cwd a).files).result = .error (.access e)) :
    (runAgain host fs cwd a).outcome = .ok 1 ∧
      (runAgain host fs cwd a).files = (run host fs cwd a).files := by
  cases h with
  | mk hconfig hlinks hdirectory houtput hcreate _ _ _ _ _ =>
    have hcreates : Creates host (run host fs cwd a).files cwd a r _ :=
      .mk hconfig hlinks hdirectory houtput (Resolver.create_of_addsFiles hadds hcreate)
    rw [runAgain, hcreates.run_eq_fail hresolve']
    exact ⟨rfl, rfl⟩

end Writes

/-- A run ends with exit code 0 if, and only if, it finds a graph and writes its Makefile to a
place. If there is no file of the graph and no source at that place, a second run with the same
arguments leaves every file as the first one did. It ends with exit code 0 again, unless the walk
for sources comes to the file that is there now and its path is too long for the system. Then the
exit code is 1. -/
theorem run_again (host : Host) (fs : FileSystem) (cwd : Location) (a : Arguments) :
    ((run host fs cwd a).outcome = .ok 0 ↔ ∃ r g place, Writes host fs cwd a r g place) ∧
    ∀ r g place, Writes host fs cwd a r g place →
      (∀ file ∈ g.files, fs.locate [] false (r.path file) ≠ .ok (.taken place.location)) →
      ¬r.IsScanRoot fs place.location →
      (∀ loc, (runAgain host fs cwd a).files.find? loc = (run host fs cwd a).files.find? loc) ∧
      (¬r.IsOutOfReach fs place.location → (runAgain host fs cwd a).outcome = .ok 0) ∧
      (r.IsOutOfReach fs place.location → (runAgain host fs cwd a).outcome = .ok 1) := by
  refine ⟨outcome_eq_zero_iff, fun r g place hwrites hkeys hsource => ?_⟩
  have hapart := hwrites.isApart hkeys hsource
  by_cases hreach : r.IsOutOfReach fs place.location
  · obtain ⟨e, hrefused⟩ := hapart.resolve_refused hreach
    obtain ⟨hcode, hfiles⟩ := hwrites.runAgain_fails hapart.adds hrefused
    exact ⟨fun loc => by rw [hfiles], fun hnot => absurd hreach hnot, fun _ => hcode⟩
  · have hresolve : (r.resolve (run host fs cwd a).files).result = .ok g := by
      rw [hapart.resolve_eq hreach, hapart.resolved]
    obtain ⟨hcode, hsame⟩ := hwrites.runAgain_eq hapart.adds hresolve
    exact ⟨hsame, fun _ => hcode, fun hnot => absurd hnot hreach⟩

/-- What is given in these arguments completes the settings. -/
lemma settings_plain : Config.ofSettings (plainArguments "app" "Makefile").settings =
    .ok (plainConfig "app") := by
  cbv

/-- A run writes the Makefile of the files that include each other. -/
lemma writes_cyclic : Writes roomyHost cyclicTree ["p"] (plainArguments "app" "Makefile") cyclic
    cyclicGraph (.free ["p"] "Makefile") := by
  have hcreate : Resolver.create cyclicTree ["p"] (.ofString ".") "c"
      (LibraryTable.standard.extend []) roomyHost.nesting = .ok cyclic := by
    cbv
  have hcheck : Makefile.check (cyclicGraph.sources (plainConfig "app").extension)
      (Makefile.testSources cyclicGraph (plainConfig "app")) (plainConfig "app") = .ok () := by
    cbv
  have hrender : Makefile.render cyclicGraph (plainConfig "app") =
      .ok (Makefile.print (Makefile.lines cyclicGraph (plainConfig "app"))) := by
    rw [Makefile.render, hcheck]
  have hlocate : cyclicTree.locate ["p"] true (outputPath "." "Makefile") =
      .ok (.free ["p"] "Makefile") := by
    cbv
  obtain ⟨bytes, hencode⟩ := exists_encode_roomyHost
    (Makefile.print (Makefile.lines cyclicGraph (plainConfig "app")))
  exact .mk settings_plain rfl rfl rfl hcreate resolve_cyclic hrender hencode hlocate
    (by rw [FileSystem.write, hlocate])

/-- The Makefile is written into the directory that is walked. -/
theorem run_again_cyclic :
    Writes roomyHost cyclicTree ["p"] (plainArguments "app" "Makefile") cyclic cyclicGraph
      (.free ["p"] "Makefile") ∧
    (runAgain roomyHost cyclicTree ["p"] (plainArguments "app" "Makefile")).outcome = .ok 0 ∧
    ∀ loc, (runAgain roomyHost cyclicTree ["p"] (plainArguments "app" "Makefile")).files.find? loc =
      (run roomyHost cyclicTree ["p"] (plainArguments "app" "Makefile")).files.find? loc := by
  have hroot : cyclicTree.Stands cyclic.root := ⟨.directory, by decide, nofun⟩
  have hnames {names : List String}
      (h : cyclic.WalksTo cyclicTree (cyclic.root ++ ["Makefile"]) names) : names = ["Makefile"] :=
    h.eq hroot
  have hkeys : ∀ file ∈ cyclicGraph.files,
      cyclicTree.locate [] false (cyclic.path file) ≠ .ok (.taken ["p", "Makefile"]) :=
    locate_ne_of_new resolve_cyclic (by decide)
  obtain ⟨hsame, hcode, -⟩ :=
    (run_again roomyHost cyclicTree ["p"] (plainArguments "app" "Makefile")).2 _ _ _ writes_cyclic
      hkeys
    (by
      rintro ⟨names, hwalks, hextension⟩
      rw [hnames hwalks] at hextension
      revert hextension
      decide)
  refine ⟨writes_cyclic, hcode ?_, hsame⟩
  rintro ⟨names, hwalks, hrefused⟩
  rw [hnames hwalks] at hrefused
  revert hrefused
  decide +kernel

/-- Directories within one another. The path of the last one is as long as the system allows. -/
def shaftTree : FileSystem :=
  deepTree.erase (List.replicate 64 longName)

/-- The last directory of the shaft. -/
def shaft : Location := List.replicate 63 longName

/-- The resolver for the last directory of the shaft. -/
def shaftResolver : Resolver := ⟨shaft, "c", .standard, roomy⟩

/-- The shaft holds what the deep tree holds, up to the last directory but one of that. -/
lemma find?_shaftTree (loc : Location) : shaftTree.find? loc =
    if List.replicate 64 longName <+: loc then none else deepTree.find? loc :=
  FileSystem.find?_erase (by simp) loc

/-- The last directory of the shaft is there. -/
lemma find?_shaft : shaftTree.find? shaft = some .directory := by
  have hdeep : deepTree.find? shaft = some .directory := find?_deepTree (by decide)
  rw [find?_shaftTree, if_neg, hdeep]
  intro hpre
  simpa [shaft] using hpre.length_le

/-- There is nothing in the last directory. -/
lemma find?_below_shaft {names : List String} (hne : names ≠ []) :
    shaftTree.find? (shaft ++ names) = none := by
  rw [find?_shaftTree]
  split
  · rfl
  · next hout =>
    by_contra hthere
    obtain ⟨e, hfind⟩ := Option.ne_none_iff_exists'.1 hthere
    rcases FileSystem.find?_eq_some_iff.1 hfind with ⟨hnil, -⟩ | hmem
    · simp [hne] at hnil
    · obtain ⟨depth, hdepth, heq⟩ := List.mem_map.1 hmem
      have hloc : List.replicate (depth + 1) longName = shaft ++ names := (Prod.mk.inj heq).1
      -- the entry is one level below the last directory, where the shaft has been cut off
      have hlength := congrArg List.length hloc
      have hpos := List.length_pos_of_ne_nil hne
      rw [List.mem_range] at hdepth
      simp only [shaft, List.length_replicate, List.length_append] at hlength
      have hlast : depth = 63 := by omega
      subst hlast
      exact hout (hloc ▸ List.prefix_rfl)

/-- The resolver's root can be opened. -/
lemma openDirectory_shaft : shaftTree.openDirectory [] shaftResolver.rootPath = .ok shaft := by
  have hshort : FileSystem.isTooLong ⟨.root, shaft⟩ = false := by
    decide +kernel
  have hstands : shaftTree.Stands shaft := ⟨_, find?_shaft, by simp⟩
  refine FileSystem.openDirectory_eq_ok_iff.2 ⟨?_, find?_shaft⟩
  rw [rootPath, shaftResolver, FileSystem.locate_stands hstands, hshort]
  rfl

/-- There is nothing to resolve in the last directory. -/
lemma resolve_shaft : (shaftResolver.resolve shaftTree).result = .ok ⟨[], []⟩ := by
  have hwalk (linked : List String → Bool) : shaftTree.walk linked shaft = [] := by
    refine List.eq_nil_iff_forall_not_mem.2 fun names hnames => ?_
    obtain ⟨hne, -, e, hfind⟩ := FileSystem.mem_walk_iff.1 hnames
    rw [find?_below_shaft hne] at hfind
    cases hfind
  have hlisting : shaftResolver.listing shaftTree = ⟨[], none⟩ := by
    rw [listing_eq openDirectory_shaft (by simp [hwalk]), hwalk]
    rfl
  have v : shaftResolver.VisitsSources shaftTree (.start ⟨[], []⟩) none := by
    rw [VisitsSources, hlisting]
    exact .nil
  rw [v.resolve_eq, hlisting]
  rfl

/-- The resolver is made for the last directory, from there. -/
lemma create_shaft : Resolver.create shaftTree shaft (.ofString ".") "c"
    (LibraryTable.standard.extend []) roomyHost.nesting = .ok shaftResolver := by
  have hhere : Path.ofString "." = .here := by
    cbv
  have hlocate : shaftTree.locate shaft false .here = .ok (.taken shaft) :=
    FileSystem.locate_eq_ok_iff.2 ⟨by decide, by decide, by rw [Path.here, FileSystem.follow]; rfl⟩
  have hsettled : shaftTree.settled shaft .here = shaft := by
    rw [FileSystem.settled, Path.here, FileSystem.settleFrom]
    rfl
  rw [hhere, create, FileSystem.isDirectory_eq_true_iff.2 ⟨shaft, hlocate, find?_shaft⟩]
  simp only [hsettled]
  rfl

/-- In the last directory, the place of the Makefile is free. -/
lemma locate_shaft : shaftTree.locate shaft true (outputPath "." "Makefile") =
    .ok (.free shaft "Makefile") := by
  have hpath : outputPath "." "Makefile" = ⟨.relative, ["Makefile"]⟩ := by
    cbv
  have hnew : shaftTree.find? (shaft ++ ["Makefile"]) = none := find?_below_shaft (by simp)
  have hfollow : shaftTree.follow true FileSystem.maxLinks shaft ["Makefile"] =
      .ok (.free shaft "Makefile") := by
    rw [FileSystem.follow, if_neg (not_not.2 find?_shaft), if_neg (by decide), if_neg (by decide),
      if_neg (by simp), if_neg (by decide)]
    simp [hnew]
  rw [hpath]
  exact FileSystem.locate_eq_ok_iff.2 ⟨by decide, by decide, hfollow⟩

/-- A run in the last directory comes to write an empty graph to that place. -/
lemma writes_shaft :
    Writes roomyHost shaftTree shaft (plainArguments "app" "Makefile") shaftResolver ⟨[], []⟩
      (.free shaft "Makefile") := by
  have hcheck : Makefile.check ((⟨[], []⟩ : Graph).sources (plainConfig "app").extension)
      (Makefile.testSources ⟨[], []⟩ (plainConfig "app")) (plainConfig "app") = .ok () := by
    cbv
  have hrender : Makefile.render ⟨[], []⟩ (plainConfig "app") =
      .ok (Makefile.print (Makefile.lines ⟨[], []⟩ (plainConfig "app"))) := by
    rw [Makefile.render, hcheck]
  obtain ⟨bytes, hencode⟩ := exists_encode_roomyHost
    (Makefile.print (Makefile.lines ⟨[], []⟩ (plainConfig "app")))
  exact .mk settings_plain rfl rfl rfl create_shaft resolve_shaft hrender hencode locate_shaft
    (by rw [FileSystem.write, locate_shaft])

/-- What a second run does not keep to. The first run writes a Makefile whose absolute path the walk
of the second one cannot look at. -/
theorem run_again_fails :
    Writes roomyHost shaftTree shaft (plainArguments "app" "Makefile") shaftResolver ⟨[], []⟩
      (.free shaft "Makefile") ∧
    (∀ file ∈ (⟨[], []⟩ : Graph).files, shaftTree.locate [] false (shaftResolver.path file) ≠
      .ok (.taken (shaft ++ ["Makefile"]))) ∧
    ¬shaftResolver.IsScanRoot shaftTree (shaft ++ ["Makefile"]) ∧
    (run roomyHost shaftTree shaft (plainArguments "app" "Makefile")).outcome = .ok 0 ∧
    (runAgain roomyHost shaftTree shaft (plainArguments "app" "Makefile")).outcome ≠ .ok 0 := by
  have hroot : shaftTree.Stands shaftResolver.root := ⟨_, find?_shaft, nofun⟩
  have hkeys : ∀ file ∈ (⟨[], []⟩ : Graph).files, shaftTree.locate [] false
      (shaftResolver.path file) ≠ .ok (.taken (shaft ++ ["Makefile"])) := by
    intro file hfile
    cases hfile
  have hsource : ¬shaftResolver.IsScanRoot shaftTree (shaft ++ ["Makefile"]) := by
    rintro ⟨names, hwalks, hextension⟩
    have hnames : names = ["Makefile"] := WalksTo.eq hwalks hroot
    subst hnames
    revert hextension
    decide
  have hreach : shaftResolver.IsOutOfReach shaftTree (shaft ++ ["Makefile"]) :=
    ⟨["Makefile"], ⟨shaft, openDirectory_shaft, rfl, by decide⟩, by decide +kernel⟩
  have hapart := writes_shaft.isApart hkeys hsource
  obtain ⟨e, hrefused⟩ := hapart.resolve_refused hreach
  refine ⟨writes_shaft, hkeys, hsource, outcome_eq_zero_iff.2 ⟨_, _, _, writes_shaft⟩, ?_⟩
  rw [(writes_shaft.runAgain_fails hapart.adds hrefused).1]
  simp

end CommandLine

end MakeDeps
