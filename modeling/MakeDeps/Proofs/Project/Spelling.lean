import MakeDeps.Proofs.FileSystem.Spelling
import MakeDeps.Proofs.Project.History
import MakeDeps.Proofs.Resolver.Sources

/-!
# Spellings of a root

A resolver does not keep how its root was spelled. It keeps the location of the directory, so two
spellings of one directory come to the same resolver: `resolve_spelling`. This needs the system to
show every link on the way; a resolver keeps the name of a link whose path is too long, and then the
spelling matters: `spelling_matters`.
-/

namespace MakeDeps.Project
open Resolver

variable {fs : FileSystem} {cwd loc : Location} {path : Path}

/-- A resolver for a path keeps the location of the directory that the path leads to. -/
lemma create_eq_ok (h : fs.openDirectory cwd path = .ok loc) (hseen : ¬fs.Misses cwd path)
    (extension : String) (libraries : LibraryTable) (nesting : Nesting) :
    create fs cwd path extension libraries nesting =
      .ok ⟨loc, extension, libraries, nesting⟩ := by
  rw [create_of_openDirectory h, FileSystem.settled_eq h hseen]

/-- A text by which the system comes to a directory is read as a path to this directory. Two texts
that are read as paths to one directory come to the same resolver, unless there is a link on one of
the paths that the system does not let one look at. The root is the location of the directory. So
the sources that are listed, the graph, and any failure are the same for both. -/
theorem resolve_spelling (fs : FileSystem) (config : Config) (libraries : LibraryTable)
    (host : Host) :
    (∀ cwd loc s, fs.IsSpelling cwd loc s → fs.openDirectory cwd (.ofString s) = .ok loc) ∧
    ∀ cwd cwd' loc s t, fs.openDirectory cwd (.ofString s) = .ok loc →
      fs.openDirectory cwd' (.ofString t) = .ok loc →
      ¬fs.Misses cwd (.ofString s) → ¬fs.Misses cwd' (.ofString t) →
      ∃ r : Resolver, r.root = loc ∧
        create fs cwd (.ofString s) config.extension libraries host.nesting = .ok r ∧
        create fs cwd' (.ofString t) config.extension libraries host.nesting = .ok r ∧
        ((Project.new (.ofString s) config libraries host).resolve fs cwd).outcome =
          r.resolve fs ∧
        ((Project.new (.ofString t) config libraries host).resolve fs cwd').outcome =
          r.resolve fs := by
  refine ⟨fun _ _ _ h => h.openDirectory, fun cwd cwd' loc s t hs ht hseen hseen' => ?_⟩
  have hcreate := create_eq_ok hs hseen config.extension libraries host.nesting
  have hcreate' := create_eq_ok ht hseen' config.extension libraries host.nesting
  exact ⟨⟨loc, config.extension, libraries, host.nesting⟩, rfl, hcreate, hcreate', outcome_resolve hcreate,
    outcome_resolve hcreate'⟩

/-- A directory and a link to it. -/
def linkedTree : FileSystem where
  entries := [
    (["p"], .directory),
    (["p", "a.c"], .file []),
    (["l"], .link "p") ]
  unique := by decide
  valid := by decide
  rooted := by
    simp only [List.forall_mem_cons]
    refine ⟨⟨[], "p", ?_⟩, ⟨["p"], "a.c", ?_⟩, ⟨[], "l", ?_⟩, by simp⟩
    all_goals exact ⟨rfl, by decide, by simp⟩

/-- A configuration for the linked project. -/
def linkedConfig : Config := ⟨"gcc", "c", "app", "c99", "O0", ["tests"], "main"⟩

/-- A path through the link is a spelling of the directory. -/
lemma isSpelling_link : linkedTree.IsSpelling [] ["p"] ".//l/" where
  nonempty := by decide
  noNul := by decide
  short := by decide
  leads := by cbv
  directory := rfl

/-- A path up and down again is a spelling of the directory. -/
lemma isSpelling_dots : linkedTree.IsSpelling ["p"] ["p"] "/p/../p" where
  nonempty := by decide
  noNul := by decide
  short := by decide
  leads := by cbv
  directory := rfl

/-- No link is missed on the path through the link. -/
lemma not_misses_link : ¬linkedTree.Misses [] (.ofString ".//l/") := by
  have hpath : Path.ofString ".//l/" = ⟨.relative, ["l"]⟩ := by cbv
  have hlink : linkedTree.linkTarget? [] .here "l" = some "p" := by cbv
  have htarget : Path.names "p" ++ [] = ["p"] := by cbv
  have hanchor : Anchor.ofChars ['p'] = .relative := rfl
  have hfolder : linkedTree.linkTarget? [] .here "p" = none := by cbv
  have hshort : FileSystem.isTooLong (Path.here.child "p") = false := by cbv
  rw [FileSystem.Misses, hpath]
  simp [Anchor.startAtPath, FileSystem.missesLink_cons_iff, hlink, htarget, hanchor, hfolder,
    hshort]

/-- No link is missed on the path up and down again. -/
lemma not_misses_dots : ¬linkedTree.Misses ["p"] (.ofString "/p/../p") := by
  have hpath : Path.ofString "/p/../p" = ⟨.root, ["p", "..", "p"]⟩ := by cbv
  have hfolder : linkedTree.linkTarget? ["p"] ⟨.root, []⟩ "p" = none := by cbv
  have hshort : FileSystem.isTooLong (Path.child ⟨.root, []⟩ "p") = false := by cbv
  have hup : (Path.child ⟨.root, []⟩ "p").up = ⟨.root, []⟩ := by cbv
  rw [FileSystem.Misses, hpath]
  simp [Anchor.startAtPath, FileSystem.missesLink_cons_iff, hfolder, hshort, hup]

/-- One directory, spelled through a link and as seen from itself. -/
theorem resolve_spelling_linked :
    linkedTree.IsSpelling [] ["p"] ".//l/" ∧ linkedTree.IsSpelling ["p"] ["p"] "/p/../p" ∧
    ∃ r : Resolver, r.root = ["p"] ∧
      create linkedTree [] (.ofString ".//l/") "c" .standard roomy = .ok r ∧
      create linkedTree ["p"] (.ofString "/p/../p") "c" .standard roomy = .ok r ∧
      ((Project.new (.ofString ".//l/") linkedConfig .standard CommandLine.roomyHost).resolve linkedTree
        []).outcome = r.resolve linkedTree ∧
      ((Project.new (.ofString "/p/../p") linkedConfig .standard CommandLine.roomyHost).resolve linkedTree
        ["p"]).outcome = r.resolve linkedTree := by
  obtain ⟨hspelling, hsame⟩ := resolve_spelling linkedTree linkedConfig .standard CommandLine.roomyHost
  exact ⟨isSpelling_link, isSpelling_dots, hsame _ _ _ _ _ (hspelling _ _ _ isSpelling_link)
    (hspelling _ _ _ isSpelling_dots) not_misses_link not_misses_dots⟩

/-- The last directory whose path is not too long, as seen from the root directory. -/
def brink : Location := List.replicate 63 longName

/-- Half the way there. -/
def halfway : Path := ⟨.relative, List.replicate 32 longName⟩

/-- In the deep directory there is a link to another one. -/
def brinkTree : FileSystem :=
  ((deepTree.place brink "l" (.link "/d")).place [] "s" (.link halfway.text)).place [] "d"
    .directory

/-- The brink is in the deep tree. -/
lemma find?_deepTree_brink : deepTree.find? brink = some .directory :=
  find?_deepTree (by decide)

/-- The names on half the way are parts of paths. -/
lemma isPart_halfway : ∀ part ∈ halfway.parts, Path.IsPart part := by
  intro part hpart
  rw [List.eq_of_mem_replicate hpart]
  exact validName_longName.isPart

/-- The names on half the way are those of the directories. -/
lemma names_halfway : Path.names halfway.text = List.replicate 32 longName :=
  Path.names_text_relative (by simp) fun part hpart => (isPart_halfway part hpart).2.2

/-- Half the way may be the target of a link. -/
lemma valid_halfway : (Entry.link halfway.text).Valid := by
  refine ⟨Path.text_ne_empty isPart_halfway, ?_⟩
  rw [halfway, Path.text_relative (by simp), Path.mem_intercalate (by decide)]
  rintro ⟨name, hname, hnul⟩
  rw [List.eq_of_mem_replicate hname] at hnul
  exact validName_longName.2.2.2.2.1 hnul

/-- What stands in the tree: two links and a directory, and what the deep tree has. -/
lemma find?_brinkTree (loc : Location) : brinkTree.find? loc =
    if loc = ["d"] then some .directory else if ["d"] <+: loc then none
    else if loc = ["s"] then some (.link halfway.text) else if ["s"] <+: loc then none
    else if loc = brink ++ ["l"] then some (.link "/d") else if brink ++ ["l"] <+: loc then none
    else deepTree.find? loc := by
  have hlink : deepTree.find? brink = some .directory ∧ ValidName "l" ∧
      (Entry.link "/d").Valid := ⟨find?_deepTree_brink, by decide, by decide⟩
  have hshortcut (fs : FileSystem) : fs.find? [] = some .directory ∧ ValidName "s" ∧
      (Entry.link halfway.text).Valid := ⟨fs.find?_nil, by decide, valid_halfway⟩
  have hfolder (fs : FileSystem) : fs.find? [] = some .directory ∧ ValidName "d" ∧
      Entry.directory.Valid := ⟨fs.find?_nil, by decide, trivial⟩
  rw [brinkTree, FileSystem.find?_place (hfolder _), FileSystem.find?_place (hshortcut _),
    FileSystem.find?_place hlink]
  simp only [List.nil_append]

/-- What stands below the first of the deep directories. -/
lemma find?_brinkTree_deep {loc : Location} (h : loc.head? = some longName) :
    brinkTree.find? loc = if loc = brink ++ ["l"] then some (.link "/d")
      else if brink ++ ["l"] <+: loc then none else deepTree.find? loc := by
  obtain ⟨hd, hs⟩ : longName ≠ "d" ∧ longName ≠ "s" := by decide +kernel
  obtain ⟨names, rfl⟩ := List.head?_eq_some_iff.1 h
  simp only [find?_brinkTree, List.cons.injEq, List.cons_prefix_cons, hd, hs, hd.symm, hs.symm,
    false_and, if_false]

/-- The way to the brink begins with the first of the deep directories. -/
lemma head?_brink : brink.head? = some longName := by
  simp [brink]

/-- The brink is a directory. -/
lemma find?_brinkTree_brink : brinkTree.find? brink = some .directory := by
  have hshort : ¬brink ++ ["l"] <+: brink := fun hpre => by simpa using hpre.length_le
  rw [find?_brinkTree_deep head?_brink, if_neg (by simp), if_neg hshort, find?_deepTree_brink]

/-- At the brink there is a link. -/
lemma find?_brinkTree_link : brinkTree.find? (brink ++ ["l"]) = some (.link "/d") := by
  rw [find?_brinkTree_deep (by simp [head?_brink]), if_pos rfl]

/-- There is a link half the way. -/
lemma find?_brinkTree_s : brinkTree.find? ["s"] = some (.link halfway.text) := by
  rw [find?_brinkTree, if_neg (by decide), if_neg (by decide), if_pos rfl]

/-- The other directory is there. -/
lemma find?_brinkTree_d : brinkTree.find? ["d"] = some .directory := by
  rw [find?_brinkTree, if_pos rfl]

/-- The other directory stands. -/
lemma stands_d : brinkTree.Stands ["d"] :=
  ⟨_, find?_brinkTree_d, nofun⟩

/-- The brink stands. -/
lemma stands_brink : brinkTree.Stands ([] ++ brink) :=
  ⟨_, find?_brinkTree_brink, nofun⟩

/-- A way to the other directory: over the link half the way to the brink, from there on to the
brink, and through the link there. -/
def detour : Path := ⟨.relative, "s" :: (List.replicate 31 longName ++ ["l"])⟩

/-- The names of the detour are valid. -/
lemma validName_detour : ∀ name ∈ detour.parts, ValidName name := by
  intro name hname
  rcases List.mem_cons.1 hname with rfl | hname
  · decide
  · rcases List.mem_append.1 hname with hname | hname
    · rw [List.eq_of_mem_replicate hname]
      exact validName_longName
    · rw [List.mem_singleton.1 hname]
      decide

/-- The way is one that the system accepts, whereas the link at the brink is out of reach. -/
lemma isTooLong_detour : FileSystem.isTooLong detour = false ∧
    FileSystem.isTooLong ⟨.relative, brink ++ ["l"]⟩ = true ∧
    FileSystem.isTooLong ⟨.root, brink ++ ["l"]⟩ = true := by
  decide +kernel

/-- What is left of the way when the first link has been followed. -/
lemma names_halfway_append : Path.names halfway.text ++ (List.replicate 31 longName ++ ["l"]) =
    brink ++ ["l"] := by
  rw [names_halfway, ← List.append_assoc, List.replicate_append_replicate, brink]

/-- Half the way is a relative path. -/
lemma ofChars_halfway : Anchor.ofChars halfway.text.toList = .relative :=
  Path.ofChars_toList_text isPart_halfway

/-- The detour leads to the other directory. -/
lemma follow_detour : brinkTree.follow false FileSystem.maxLinks [] detour.parts =
    .ok (.taken ["d"]) := by
  have hs : brinkTree.find? ([] ++ ["s"]) = some (.link halfway.text) := find?_brinkTree_s
  have hbrink := FileSystem.follow_names_append stands_brink 39 ["l"]
  rw [List.nil_append] at hbrink
  have hnames : Path.names "/d" ++ [] = ["", "d"] := by cbv
  have hanchor : (Anchor.ofChars "/d".toList).startAt brink = [] := rfl
  have hd : brinkTree.Stands ([] ++ ["d"]) := stands_d
  calc brinkTree.follow false 40 [] ("s" :: (List.replicate 31 longName ++ ["l"]))
    _ = brinkTree.follow false 39 [] (brink ++ ["l"]) := by
        rw [FileSystem.follow_link hs, names_halfway_append, ofChars_halfway,
          Anchor.startAt]
    _ = brinkTree.follow false 39 brink ["l"] := hbrink
    _ = brinkTree.follow false 38 [] ["", "d"] := by
        rw [FileSystem.follow_link find?_brinkTree_link, hnames, hanchor]
    _ = brinkTree.follow false 38 [] ["d"] := by
        rw [FileSystem.follow, if_neg (by simp), if_pos (.inl rfl)]
    _ = .ok (.taken ["d"]) := FileSystem.follow_names hd 38

/-- The detour is a spelling of the other directory. -/
lemma isSpelling_detour : brinkTree.IsSpelling [] ["d"] detour.text :=
  FileSystem.isSpelling_text (by simp) validName_detour isTooLong_detour.1 follow_detour
    find?_brinkTree_d

/-- The name of the other directory is one, too. -/
lemma isSpelling_d : brinkTree.IsSpelling [] ["d"] "d" := by
  have hd : brinkTree.Stands ([] ++ ["d"]) := stands_d
  exact FileSystem.isSpelling_text (by simp) (by decide) (by decide) (FileSystem.follow_names hd _)
    find?_brinkTree_d

/-- The detour is settled at the link, which has a path that is too long to be read. -/
lemma settled_detour : brinkTree.settled [] detour = brink ++ ["l"] := by
  have hlink : brinkTree.linkTarget? [] .here "s" = some halfway.text := by
    refine FileSystem.linkTarget?_eq_some_iff.2 ⟨by decide, FileSystem.lookAt_eq_ok_iff.2 ?_⟩
    exact ⟨FileSystem.find?_nil _, by decide, find?_brinkTree_s⟩
  have hmissed : brinkTree.linkTarget? [] ⟨.relative, brink⟩ "l" = none := by
    rw [FileSystem.linkTarget?, Path.child, if_pos isTooLong_detour.2.1]
  have hbrink := FileSystem.settleFrom_names_append (p := .here) stands_brink 39 ["l"]
  have hsettle : brinkTree.settleFrom [] FileSystem.maxLinks (detour.anchor.startAtPath .here)
      detour.parts = ⟨.relative, brink ++ ["l"]⟩ :=
    calc brinkTree.settleFrom [] 40 .here ("s" :: (List.replicate 31 longName ++ ["l"]))
      _ = brinkTree.settleFrom [] 39 .here (brink ++ ["l"]) := by
          rw [FileSystem.settleFrom_link hlink, names_halfway_append, ofChars_halfway,
            Anchor.startAtPath]
      _ = brinkTree.settleFrom [] 39 ⟨.relative, brink⟩ ["l"] := hbrink
      _ = ⟨.relative, brink ++ ["l"]⟩ := by
          rw [FileSystem.settleFrom, if_neg (by decide), if_neg (by decide)]
          simp only [hmissed]
          rw [FileSystem.settleFrom, Path.child]
  have hup : ∀ name ∈ brink ++ ["l"], name ≠ ".." := fun name hname =>
    (FileSystem.validName_of_mem find?_brinkTree_link name hname).2.2.1
  have hparts : Path.locationFrom [] ⟨.relative, [] ++ (brink ++ ["l"])⟩ =
      [] ++ (brink ++ ["l"]) := FileSystem.locationFrom_append hup
  rw [List.nil_append] at hparts
  rw [FileSystem.settled, hsettle, hparts]

/-- The name of the other directory is settled there. -/
lemma settled_d : brinkTree.settled [] ⟨.relative, ["d"]⟩ = ["d"] := by
  have hd : brinkTree.Stands (Path.here.locationFrom [] ++ ["d"]) := stands_d
  have hsettle := FileSystem.settleFrom_names_append hd 40 []
  rw [FileSystem.settleFrom] at hsettle
  exact congrArg (Path.locationFrom []) hsettle

/-- Nothing is listed from the link at the brink: its path is too long. -/
lemma listing_brink {r : Resolver} (h : r.root = brink ++ ["l"]) :
    (r.listing brinkTree).complete = .error (.access ⟨.nameTooLong, r.rootPath.text⟩) := by
  have hnul : '\x00' ∉ (Path.text ⟨.root, brink ++ ["l"]⟩).toList := by
    rw [Path.mem_text_root (by decide)]
    rintro ⟨name, hname, hnul⟩
    have hvalid := FileSystem.validName_of_mem find?_brinkTree_link name hname
    exact hvalid.2.2.2.2.1 hnul
  have hopen : brinkTree.openDirectory [] r.rootPath = .error (.refused .nameTooLong) := by
    rw [FileSystem.openDirectory, FileSystem.locate, rootPath, h, if_neg hnul,
      if_pos isTooLong_detour.2.2]
  rw [listing, hopen]
  rfl

/-- From the other directory the listing comes to its end. -/
lemma listing_d {r : Resolver} (h : r.root = ["d"]) :
    (r.listing brinkTree).complete = .ok [] := by
  have hopen : brinkTree.openDirectory [] r.rootPath = .ok ["d"] := by
    refine FileSystem.openDirectory_eq_ok_iff.2 ⟨?_, find?_brinkTree_d⟩
    rw [rootPath, h, FileSystem.locate_stands stands_d, if_neg (by decide)]
  have hwalk (linked : List String → Bool) : brinkTree.walk linked ["d"] = [] := by
    refine List.eq_nil_iff_forall_not_mem.2 fun names hnames => ?_
    obtain ⟨hne, -, e, hfind⟩ := FileSystem.mem_walk_iff.1 hnames
    rw [find?_brinkTree, if_neg (by simpa using hne), if_pos (List.prefix_append _ _)] at hfind
    cases hfind
  rw [listing_of_openDirectory hopen, hwalk]
  rfl

/-- What a missed link does. Two texts are spellings of one directory, but the first one leads
through a link whose path is too long. A resolver for this spelling keeps the name of the link and
cannot list anything, whereas one for the other spelling has nothing to list. -/
theorem spelling_matters :
    brinkTree.IsSpelling [] ["d"] detour.text ∧ brinkTree.IsSpelling [] ["d"] "d" ∧
    ∃ r r' : Resolver,
      create brinkTree [] (.ofString detour.text) "c" .standard roomy = .ok r ∧
      create brinkTree [] (.ofString "d") "c" .standard roomy = .ok r' ∧
      (r.listing brinkTree).complete = .error (.access ⟨.nameTooLong, r.rootPath.text⟩) ∧
      (r'.listing brinkTree).complete = .ok [] := by
  have hdetour : Path.ofString detour.text = detour :=
    Path.ofString_text fun name hname => (validName_detour name hname).isPart
  have hd : Path.ofString "d" = ⟨.relative, ["d"]⟩ := by cbv
  refine ⟨isSpelling_detour, isSpelling_d, ⟨brink ++ ["l"], "c", .standard, roomy⟩,
    ⟨["d"], "c", .standard, roomy⟩, ?_, ?_, listing_brink rfl, listing_d rfl⟩
  · rw [create_of_openDirectory isSpelling_detour.openDirectory, hdetour, settled_detour]
  · rw [create_of_openDirectory isSpelling_d.openDirectory, hd, settled_d]

end MakeDeps.Project
