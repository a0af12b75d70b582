import MakeDeps.Proofs.Resolver.FirstFailure
import MakeDeps.Proofs.Resolver.Unread

/-!
# Resolving once more after a file was written

A file that is no source and is not part of the graph can be written without a change to the graph
(`IsApart.resolve_eq`), unless the walk for sources comes to that file on a path that is too long;
then there is no graph any more (`IsApart.resolve_refused`).
-/

namespace MakeDeps.Resolver
open Search

/-- These names lead to the location from the directory of the root, and none of them is hidden, so
the walk for sources comes there if something is there. -/
def WalksTo (r : Resolver) (fs : FileSystem) (loc : Location) (names : List String) : Prop :=
  ∃ root, fs.openDirectory [] r.rootPath = .ok root ∧ loc = root ++ names ∧
    ∀ name ∈ names, FileSystem.isHidden name = false

/-- A file at the location is a source. -/
def IsScanRoot (r : Resolver) (fs : FileSystem) (loc : Location) : Prop :=
  ∃ names, r.WalksTo fs loc names ∧ Path.hasExtension (fileName names) r.extension = true

/-- The walk for sources is refused a look at the location, for the length of its path. -/
def IsOutOfReach (r : Resolver) (fs : FileSystem) (loc : Location) : Prop :=
  ∃ names, r.WalksTo fs loc names ∧ r.isRefused names = true

/-- The second tree has a file at a location that is not part of the graph of the first one and at
which there is no source. Otherwise the trees are the same. -/
structure IsApart (r : Resolver) (fs fs' : FileSystem) (g : Graph) (loc : Location) : Prop where
  resolved : (r.resolve fs).result = .ok g
  adds : fs.AddsFiles fs'
  kept : ∀ other, other ≠ loc → fs'.find? other = fs.find? other
  file : fs'.isFile loc = true
  unlisted : ∀ file ∈ g.files, fs.locate [] false (r.path file) ≠ .ok (.taken loc)
  noSource : ¬r.IsScanRoot fs loc

variable {r : Resolver} {fs fs' : FileSystem} {g : Graph} {loc root : Location} {file : String}
  {names other : List String}

/-- A file is no directory for a walk. -/
lemma isFolder_of_isFile {linked : List String → Bool} (h : fs.isFile (root ++ names) = true) :
    fs.isFolder linked root names = false := by
  obtain ⟨content, hfind⟩ := FileSystem.isFile_iff.1 h
  simp [FileSystem.isFolder, hfind, FileSystem.isFolderEntry]

/-- At a file a walk ends for the length of its path, or not at all. -/
lemma refusal?_of_isFile (h : fs.isFile (root ++ names) = true) : r.refusal? fs root names =
    if r.isRefused names then
      some (.access ⟨.nameTooLong, (r.rootPath.join ⟨.relative, names⟩).text⟩)
    else none := by
  rw [refusal?, isFolder_of_isFile h, if_neg (by simp)]

/-- The listing of sources where the walk comes to its end. -/
lemma listing_eq (hroot : fs.openDirectory [] r.rootPath = .ok root)
    (hreach : ∀ names ∈ fs.walk (r.leadsToFolder fs) root, r.refusal? fs root names = none) :
    r.listing fs = ⟨((fs.walk (r.leadsToFolder fs) root).filter fun names =>
      Path.hasExtension (fileName names) r.extension && fs.isFile (root ++ names)).map fileName,
      none⟩ := by
  have hall : (fs.walk (r.leadsToFolder fs) root).takeWhile
      (fun names => (r.refusal? fs root names).isNone) = fs.walk (r.leadsToFolder fs) root :=
    List.takeWhile_eq_self_iff.2 fun names hnames => by simp [hreach names hnames]
  have hnone : (fs.walk (r.leadsToFolder fs) root).findSome? (r.refusal? fs root) = none :=
    List.findSome?_eq_none_iff.2 hreach
  simp only [listing, hroot, hall, hnone, List.filter_map, List.filter_filter,
    Function.comp_apply]

/-- The files of a graph that has been resolved are sound. -/
lemma isSound_of_mem_files (h : (r.resolve fs).result = .ok g) (hfile : file ∈ g.files) :
    r.IsSound fs file := by
  obtain ⟨located, hlocated, -⟩ := located_of_mem_files h hfile
  exact exists_includesOf_iff.1 ⟨_, scan_includes_eq_ok_iff.2 ⟨located, hlocated, rfl⟩⟩

/-- A walk from the root along names that stand leads there. -/
lemma WalksTo.eq (h : r.WalksTo fs (r.root ++ names) other) (hroot : fs.Stands r.root) :
    other = names := by
  obtain ⟨root, hopen, heq, -⟩ := h
  rw [eq_root_of_stands hopen hroot] at heq
  exact (List.append_cancel_left heq).symm

/-- What was not there is not part of the graph. -/
lemma locate_ne_of_new (h : (r.resolve fs).result = .ok g) (hnew : fs.find? loc = none) :
    ∀ file ∈ g.files, fs.locate [] false (r.path file) ≠ .ok (.taken loc) := by
  intro file hfile hlocate
  obtain ⟨root, -, ⟨content, hfind⟩, hlocate'⟩ := liesAt_of_mem_files h hfile
  cases hlocate.symm.trans hlocate'
  rw [hnew] at hfind
  cases hfind

namespace IsApart

/-- The walk comes to its end in a tree to which something has been added apart from the graph. -/
lemma listing_failure (h : r.IsApart fs fs' g loc) : (r.listing fs).failure = none := by
  obtain ⟨-, -, -, hwalk⟩ := exists_visits_of_resolve h.resolved
  exact hwalk

/-- The first walk has come to its end. -/
lemma reach (h : r.IsApart fs fs' g loc) (hroot : fs.openDirectory [] r.rootPath = .ok root) :
    ∀ names ∈ fs.walk (r.leadsToFolder fs) root, r.refusal? fs root names = none := by
  have hnone := h.listing_failure
  simp only [listing, hroot] at hnone
  exact List.findSome?_eq_none_iff.1 hnone

/-- What the second walk meets is what the first one has met, or the file. -/
lemma mem_walk (h : r.IsApart fs fs' g loc) (hnames : names ∈ fs'.walk (r.leadsToFolder fs') root)
    (hne : root ++ names ≠ loc) : names ∈ fs.walk (r.leadsToFolder fs) root := by
  rw [FileSystem.mem_walk_iff] at hnames ⊢
  rwa [← h.kept _ hne]

/-- The second walk can only end early at the file. -/
lemma refusal?_eq_none (h : r.IsApart fs fs' g loc)
    (hroot : fs.openDirectory [] r.rootPath = .ok root)
    (hnames : names ∈ fs'.walk (r.leadsToFolder fs') root) (hne : root ++ names ≠ loc) :
    r.refusal? fs' root names = none := by
  rw [refusal?_of_addsFiles h.adds]
  exact h.reach hroot names (h.mem_walk hnames hne)

/-- The scan of a listed file is the same. -/
lemma scan_eq (h : r.IsApart fs fs' g loc) (hfile : file ∈ g.files) :
    r.scan fs' file = r.scan fs file := by
  obtain ⟨content, hread, hleads⟩ := isSound_of_mem_files h.resolved hfile
  have hread' : fs'.read [] (r.path file) = fs.read [] (r.path file) := by
    refine (h.adds.read fun other hother => h.kept other ?_).resolve_left (by simp [hread])
    rintro rfl
    exact h.unlisted file hfile hother
  refine scan_congr hread' fun content' target hcontent htarget => ?_
  cases hread.symm.trans hcontent
  obtain ⟨there, hcanonical, -⟩ := hleads target htarget
  have hcanonical' := (h.adds.canonical r.nesting.links).resolve_left (by rw [hcanonical]; nofun)
  rw [locate, hcanonical', locate]

/-- Without a path that is too long, the listing of sources is the same. -/
lemma listing_eq (h : r.IsApart fs fs' g loc) (hreach : ¬r.IsOutOfReach fs loc) :
    r.listing fs' = r.listing fs := by
  obtain ⟨root, hroot⟩ := exists_root h.resolved
  have hroot' := h.adds.openDirectory hroot
  have hreach' : ∀ names ∈ fs'.walk (r.leadsToFolder fs') root,
      r.refusal? fs' root names = none := by
    intro names hnames
    by_cases hloc : root ++ names = loc
    · have hvisible := (FileSystem.mem_walk_iff.1 hnames).2.1
      rw [refusal?_of_isFile (by rw [hloc]; exact h.file), if_neg]
      exact fun hrefused => hreach ⟨names, ⟨root, hroot, hloc.symm, hvisible⟩, hrefused⟩
    · exact h.refusal?_eq_none hroot hnames hloc
  rw [Resolver.listing_eq hroot' hreach', Resolver.listing_eq hroot (h.reach hroot),
    leadsToFolder_of_addsFiles h.adds, h.adds.walk_eq, List.filter_filter]
  congr 2
  refine List.filter_congr fun names hnames => ?_
  by_cases hloc : root ++ names = loc
  · have hvisible := (FileSystem.mem_walk_iff.1 hnames).2.1
    have hextension : Path.hasExtension (fileName names) r.extension = false := by
      by_contra hsource
      exact h.noSource ⟨names, ⟨root, hroot, hloc.symm, hvisible⟩, by simpa using hsource⟩
    simp [hextension]
  · have hthere : fs.isFile (root ++ names) = true → (fs.find? (root ++ names)).isSome = true := by
      rw [FileSystem.isFile_iff]
      rintro ⟨content, hfind⟩
      rw [hfind]
      rfl
    rw [FileSystem.isFile, h.kept _ hloc, ← FileSystem.isFile, Bool.and_assoc,
      Bool.and_eq_left_iff_imp.2 hthere]

/-- The graph is found once more. -/
lemma resolve_eq (h : r.IsApart fs fs' g loc) (hreach : ¬r.IsOutOfReach fs loc) :
    r.resolve fs' = r.resolve fs :=
  resolve_congr (h.listing_eq hreach) fun _ hscanned =>
    h.scan_eq ((mem_scanned_iff h.resolved).1 hscanned)

/-- A listed file says the same once more. -/
lemma located (h : r.IsApart fs fs' g loc) (hfile : file ∈ g.files) :
    ∃ found, r.Located fs' file found ∧ g.dependenciesOf file = found.eraseDups := by
  obtain ⟨found, hfound, heq⟩ := located_of_mem_files h.resolved hfile
  have hscan := scan_includes_eq_ok_iff.2 ⟨found, hfound, rfl⟩
  rw [← h.scan_eq hfile] at hscan
  obtain ⟨found', hfound', heq'⟩ := scan_includes_eq_ok_iff.1 hscan
  exact ⟨found', hfound', heq.trans heq'⟩

/-- The files of the graph still hold every source, and whatever they include. -/
lemma encloses (h : r.IsApart fs fs' g loc) : r.Encloses fs' {file | file ∈ g.files} := by
  obtain ⟨root, hroot⟩ := exists_root h.resolved
  refine ⟨fun source hsource => ?_, fun file hfile other hincludes => ?_⟩
  · obtain ⟨root', names, hroot', hnames, hregular, hname⟩ := exists_walk_of_source hsource
    cases (h.adds.openDirectory hroot).symm.trans hroot'
    have hextension := hname ▸ hasExtension_of_mem_sources hsource
    have hloc : root ++ names ≠ loc := by
      rintro rfl
      have hvisible := (FileSystem.mem_walk_iff.1 hnames).2.1
      exact h.noSource ⟨names, ⟨root, hroot, rfl, hvisible⟩, hextension⟩
    refine mem_files_of_source h.resolved ?_
    rw [Resolver.listing_eq hroot (h.reach hroot), hname]
    refine List.mem_map_of_mem (List.mem_filter.2 ⟨h.mem_walk hnames hloc, ?_⟩)
    rw [FileSystem.isFile, h.kept _ hloc, ← FileSystem.isFile] at hregular
    rw [hextension, hregular]
    rfl
  · obtain ⟨found, hfound, heq⟩ := h.located hfile
    refine mem_files_of_mem_dependenciesOf h.resolved hfile ?_
    rw [heq, List.mem_eraseDups]
    exact hfound.includes_iff.1 hincludes

/-- If the path of the file is too long for the walk, there is no graph any more. -/
lemma resolve_refused (h : r.IsApart fs fs' g loc) (hreach : r.IsOutOfReach fs loc) :
    ∃ e, (r.resolve fs').result = .error (.access e) := by
  obtain ⟨names, ⟨root, hroot, rfl, hvisible⟩, hrefused⟩ := hreach
  have hroot' := h.adds.openDirectory hroot
  obtain ⟨content, hfind⟩ := FileSystem.isFile_iff.1 h.file
  have hne : names ≠ [] := by
    rintro rfl
    rw [List.append_nil, (FileSystem.openDirectory_eq_ok_iff.1 hroot').2] at hfind
    cases hfind
  have hmet : names ∈ fs'.walk (r.leadsToFolder fs') root :=
    FileSystem.mem_walk_iff.2 ⟨hne, hvisible, _, hfind⟩
  have hends : r.refusal? fs' root names =
      some (.access ⟨.nameTooLong, (r.rootPath.join ⟨.relative, names⟩).text⟩) := by
    rw [refusal?_of_isFile h.file, if_pos hrefused]
  have hfailure : ∃ e, (r.listing fs').failure = some (.access e) := by
    cases hfirst : (fs'.walk (r.leadsToFolder fs') root).findSome? (r.refusal? fs' root) with
    | none => cases hends.symm.trans (List.findSome?_eq_none_iff.1 hfirst names hmet)
    | some failure =>
      -- whatever it is that ends the walk, it is the file
      obtain ⟨other, hother, hfailure⟩ := List.exists_of_findSome?_eq_some hfirst
      have hsame : root ++ other = root ++ names := by
        by_contra hne'
        cases hfailure.symm.trans (h.refusal?_eq_none hroot hother hne')
      cases List.append_cancel_left hsame
      cases hends.symm.trans hfailure
      refine ⟨⟨.nameTooLong, (r.rootPath.join ⟨.relative, names⟩).text⟩, ?_⟩
      simp only [listing, hroot', hfirst]
  -- the search itself stays among the listed files, none of which fails
  have hsound : r.firstFailure? fs' = none := by
    refine firstFailure?_eq_none_iff.2 fun file hfile => ?_
    obtain ⟨source, hsource, path⟩ := (r.traversal_searchOrder fs').reachable file hfile
    have hlisted := h.encloses.mem_of_reaches hsource
      (Relation.ReflTransGen.mono (fun _ _ => includes_of_edge) _ _ path)
    obtain ⟨found, hfound, -⟩ := h.located hlisted
    exact exists_includesOf_iff.1 ⟨_, scan_includes_eq_ok_iff.2 ⟨found, hfound, rfl⟩⟩
  obtain ⟨e, hwalk⟩ := hfailure
  exact ⟨e, result_eq_error_iff.2 (by rw [hsound, hwalk]; rfl)⟩

end IsApart

end MakeDeps.Resolver
