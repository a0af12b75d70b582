import MakeDeps.Proofs.FileSystem.Follow
import MakeDeps.Proofs.FileSystem.Walk
import MakeDeps.Proofs.Resolver.ScanOrder

/-!
# Where files lie

The walk for sources and the includes name files in the same way, by the names that lead to them
from the root without links and without detours. So a resolution opens nothing outside the root,
and a graph has one name for each of its files: `resolve_below_root`.
-/

namespace MakeDeps
open Search

namespace Resolver

variable {r : Resolver} {fs : FileSystem} {g : Graph} {file other : String} {names : List String}

/-- Names lead to something that stands below the directory of the root, and the file is named
after them. -/
def LiesAt (r : Resolver) (fs : FileSystem) (file : String) (root : Location)
    (names : List String) : Prop :=
  fs.openDirectory [] r.rootPath = .ok root ∧ fs.Stands (root ++ names) ∧ file = fileName names

namespace LiesAt
variable {root : Location} {content : List UInt8}

/-- The names that lead to a file are valid. -/
lemma validName (h : r.LiesAt fs file root names) : ∀ name ∈ names, ValidName name :=
  fun name hname => h.2.1.validName name (List.mem_append_right _ hname)

/-- The path of the file consists of the root and these names. -/
lemma path_eq (h : r.LiesAt fs file root names) : r.path file = ⟨.root, r.root ++ names⟩ := by
  have hparts : ∀ part ∈ (⟨.relative, names⟩ : Path).parts, Path.IsPart part :=
    fun part hpart => (h.validName part hpart).isPart
  rw [h.2.2, path, fileName, Path.ofString_text hparts]
  rfl

/-- The path of the file leads to the end of these names, or is too long. -/
lemma locate_eq (h : r.LiesAt fs file root names) : fs.locate [] false (r.path file) =
    if FileSystem.isTooLong (r.path file) then .error (.refused .nameTooLong)
    else .ok (.taken (root ++ names)) := by
  rw [h.path_eq]
  exact FileSystem.locate_below h.1 h.2.1

/-- The name of the file consists of these names, if there are any. -/
lemma names_eq (h : r.LiesAt fs file root names) (hne : names ≠ []) : Path.names file = names := by
  rw [h.2.2, fileName]
  exact Path.names_text_relative hne fun part hpart => (h.validName part hpart).isPart.2.2

/-- What is read is what stands at the end of these names. -/
lemma find?_of_read (h : r.LiesAt fs file root names)
    (hread : fs.read [] (r.path file) = .ok content) :
    FileSystem.isTooLong (r.path file) = false ∧
      fs.find? (root ++ names) = some (.file content) := by
  unfold FileSystem.read at hread
  rw [h.locate_eq] at hread
  cases hlong : FileSystem.isTooLong (r.path file) with
  | true => simp [hlong] at hread
  | false =>
    obtain ⟨e, hfind, -⟩ := h.2.1
    simp only [hlong, Bool.false_eq_true, if_false, hfind] at hread
    cases e with
    | file other =>
      cases hread
      exact ⟨rfl, hfind⟩
    | directory => cases hread
    | link target => cases hread

/-- The root is a directory, so what is read has a name. -/
lemma names_ne_nil (h : r.LiesAt fs file root names)
    (hread : fs.read [] (r.path file) = .ok content) : names ≠ [] := by
  rintro rfl
  obtain ⟨-, hfind⟩ := h.find?_of_read hread
  rw [List.append_nil, (FileSystem.openDirectory_eq_ok_iff.1 h.1).2] at hfind
  cases hfind

end LiesAt

/-- The walk for sources ends with this failure when it meets the end of the names. A directory or a
link to one may be nested too deeply; what is not may have a path that is too long. -/
inductive Blocks (r : Resolver) (fs : FileSystem) (root : Location) (names : List String) :
    Failure → Prop where
  | tooDeep :
    fs.isFolder (r.leadsToFolder fs) root names = true → r.nesting.folders < names.length →
    Blocks r fs root names .tooDeep
  | tooLong :
    ¬(fs.isFolder (r.leadsToFolder fs) root names = true ∧ r.nesting.folders < names.length) →
    FileSystem.isTooLong ⟨.root, r.root ++ names⟩ = true →
    Blocks r fs root names (.access ⟨.nameTooLong, Path.text ⟨.root, r.root ++ names⟩⟩)

/-- This is what the walk finds out where it meets something. -/
lemma refusal?_eq_some_iff {root : Location} {failure : Failure} :
    r.refusal? fs root names = some failure ↔ r.Blocks fs root names failure := by
  have hpath : r.rootPath.join ⟨.relative, names⟩ = ⟨.root, r.root ++ names⟩ := rfl
  rw [refusal?, isRefused, hpath]
  constructor
  · intro h
    split at h
    · next hdeep =>
      cases h
      exact .tooDeep hdeep.1 hdeep.2
    · next hdeep =>
      split at h
      · next hlong =>
        cases h
        exact .tooLong hdeep hlong
      · cases h
  · intro h
    cases h with
    | tooDeep hfolder hdeep => rw [if_pos ⟨hfolder, hdeep⟩]
    | tooLong hdeep hlong => rw [if_neg hdeep, if_pos hlong]

/-- The walk gets past everything that it does not end at. -/
lemma refusal?_eq_none_iff {root : Location} :
    r.refusal? fs root names = none ↔ ∀ failure, ¬r.Blocks fs root names failure := by
  simp only [← refusal?_eq_some_iff, Option.eq_none_iff_forall_ne_some, ne_eq]

/-- A source lies where the walk has met it. -/
lemma exists_liesAt_of_source (h : file ∈ (r.listing fs).sources) :
    ∃ root names, r.LiesAt fs file root names := by
  unfold listing at h
  split at h
  · cases h
  · next root hroot =>
    obtain ⟨names, hmem, rfl⟩ := List.mem_map.1 (List.mem_filter.1 h).1
    obtain ⟨-, hfile⟩ := List.mem_filter.1 hmem
    refine ⟨root, names, hroot, ?_, rfl⟩
    unfold FileSystem.isFile at hfile
    split at hfile
    · next content hfind => exact ⟨_, hfind, nofun⟩
    · cases hfile

/-- A resolver for a path that leads to a directory keeps where the path settles. -/
lemma create_of_openDirectory {cwd loc : Location} {path : Path}
    (h : fs.openDirectory cwd path = .ok loc) (extension : String) (libraries : LibraryTable)
    (nesting : Nesting) : create fs cwd path extension libraries nesting =
      .ok ⟨fs.settled cwd path, extension, libraries, nesting⟩ := by
  have hdirectory : fs.isDirectory cwd path = .ok true :=
    FileSystem.isDirectory_eq_true_iff.2 ⟨loc, FileSystem.openDirectory_eq_ok_iff.1 h⟩
  rw [create, hdirectory]

/-- The path of a root at which there is a directory leads to that directory. -/
lemma eq_root_of_stands {root : Location} (hroot : fs.openDirectory [] r.rootPath = .ok root)
    (h : fs.Stands r.root) : root = r.root := by
  obtain ⟨hlocate, -⟩ := FileSystem.openDirectory_eq_ok_iff.1 hroot
  exact FileSystem.eq_of_locate_stands h hlocate

/-- What a file includes lies where its canonical location is. -/
lemma exists_liesAt_of_includes {root : Location}
    (hroot : fs.openDirectory [] r.rootPath = .ok root) (h : r.Includes fs file other) :
    ∃ names, r.LiesAt fs other root names := by
  obtain ⟨content, target, -, -, hlocate⟩ := h
  obtain ⟨names, rfl, hstands⟩ := stands_of_locate hlocate
  cases eq_root_of_stands hroot hstands.above
  exact ⟨names, hroot, hstands, rfl⟩

/-- What is reached from a source lies below the root. -/
lemma exists_liesAt_of_reaches {source : String} (hsource : source ∈ (r.listing fs).sources)
    (path : Relation.ReflTransGen (r.Includes fs) source file) :
    ∃ root names, r.LiesAt fs file root names := by
  obtain ⟨root, names, hlies⟩ := exists_liesAt_of_source hsource
  cases path with
  | refl => exact ⟨root, names, hlies⟩
  | tail _ hincludes => exact ⟨root, exists_liesAt_of_includes hlies.1 hincludes⟩

/-- What has been scanned lies below the root. -/
lemma exists_liesAt_of_scanned (h : file ∈ scanned (r.resolve fs).log) :
    ∃ root names, r.LiesAt fs file root names := by
  obtain ⟨m, failure, v⟩ := r.exists_visitsSources fs
  rw [v.scanned_eq] at h
  rcases v.reachable file h with hstart | ⟨source, hsource, path⟩
  · simp [Memory.start] at hstart
  · exact exists_liesAt_of_reaches hsource
      (Relation.ReflTransGen.mono (fun _ _ => includes_of_edge) _ _ path)

/-- The paths that a resolution opens: the root and the directories below it, which the walk for
sources lists, and the files that are scanned. -/
inductive Opens (r : Resolver) (fs : FileSystem) : Path → Prop where
  | root : Opens r fs r.rootPath
  | folder {root names} :
    fs.openDirectory [] r.rootPath = .ok root → names ∈ fs.walk (r.leadsToFolder fs) root →
    fs.find? (root ++ names) = some .directory →
    Opens r fs (r.rootPath.join ⟨.relative, names⟩)
  | file {path} : path ∈ scanned (r.resolve fs).log → Opens r fs (r.path path)

/-- What is opened is the root, or something that stands below it and is opened by the path that
consists of the root and the names that lead there. -/
lemma Opens.eq_or_exists {p : Path} (h : r.Opens fs p) : p = r.rootPath ∨
    ∃ root names, fs.openDirectory [] r.rootPath = .ok root ∧ fs.Stands (root ++ names) ∧
      p = ⟨.root, r.root ++ names⟩ := by
  cases h with
  | root => exact .inl rfl
  | @folder root names hroot _ hfind => exact .inr ⟨root, names, hroot, ⟨_, hfind, nofun⟩, rfl⟩
  | file hscanned =>
    obtain ⟨root, names, hlies⟩ := exists_liesAt_of_scanned hscanned
    exact .inr ⟨root, names, hlies.1, hlies.2.1, hlies.path_eq⟩

/-- The path of what is opened is that of the root with valid names behind it, and whatever it
leads to lies below the directory of the root, at the end of these names. -/
lemma Opens.exists_names {p : Path} (h : r.Opens fs p) : ∃ names,
    p = ⟨.root, r.root ++ names⟩ ∧ (∀ name ∈ names, ValidName name) ∧
    ∀ root loc, fs.openDirectory [] r.rootPath = .ok root →
      fs.locate [] false p = .ok (.taken loc) → loc = root ++ names := by
  rcases h.eq_or_exists with rfl | ⟨root, names, hroot, hstands, rfl⟩
  · refine ⟨[], by simp [rootPath], by simp, fun root loc hroot hlocate => ?_⟩
    cases (FileSystem.openDirectory_eq_ok_iff.1 hroot).1.symm.trans hlocate
    rw [List.append_nil]
  · have hvalid : ∀ name ∈ names, ValidName name :=
      fun name hname => hstands.validName name (List.mem_append_right _ hname)
    refine ⟨names, rfl, hvalid, fun root' loc hroot' hlocate => ?_⟩
    cases hroot.symm.trans hroot'
    exact FileSystem.eq_of_locate_below hroot hstands hlocate

/-- A file of a graph is a regular file, and its name consists of the names that lead to it. -/
lemma liesAt_of_mem_files (h : (r.resolve fs).result = .ok g) (hfile : file ∈ g.files) :
    ∃ root, r.LiesAt fs file root (Path.names file) ∧
      (∃ content, fs.find? (root ++ Path.names file) = some (.file content)) ∧
      fs.locate [] false (r.path file) = .ok (.taken (root ++ Path.names file)) := by
  obtain ⟨root, names, hlies⟩ := exists_liesAt_of_scanned ((mem_scanned_iff h).2 hfile)
  obtain ⟨located, ⟨content, hread, -⟩, -⟩ := located_of_mem_files h hfile
  obtain ⟨hshort, hfind⟩ := hlies.find?_of_read hread
  have hlocate := hlies.locate_eq
  rw [hshort, if_neg Bool.false_ne_true] at hlocate
  rw [hlies.names_eq (hlies.names_ne_nil hread)]
  exact ⟨root, hlies, ⟨content, hfind⟩, hlocate⟩

/-- A root from which a graph has been resolved can be opened. -/
lemma exists_root (h : (r.resolve fs).result = .ok g) :
    ∃ root, fs.openDirectory [] r.rootPath = .ok root := by
  obtain ⟨-, -, -, hwalk⟩ := exists_visits_of_resolve h
  unfold listing at hwalk
  split at hwalk
  · cases hwalk
  · next root hroot => exact ⟨root, hroot⟩

/-- Files with paths that lead to the same place have the same name. -/
lemma eq_of_locate_eq (h : (r.resolve fs).result = .ok g) (hfile : file ∈ g.files)
    (hother : other ∈ g.files)
    (heq : fs.locate [] false (r.path file) = fs.locate [] false (r.path other)) :
    file = other := by
  obtain ⟨root, hlies, -, hlocate⟩ := liesAt_of_mem_files h hfile
  obtain ⟨root', hlies', -, hlocate'⟩ := liesAt_of_mem_files h hother
  cases hlies.1.symm.trans hlies'.1
  rw [hlocate, hlocate', Except.ok.injEq, Place.taken.injEq, List.append_cancel_left_eq] at heq
  rw [hlies.2.2, hlies'.2.2, heq]

/-- Whatever a resolution opens, whether it succeeds or not, is opened by a path that goes on from
the root with valid names, and lies where these names lead from the directory of the root. If the
resolution succeeds, then each file of the graph is named by valid names, there are only
directories on the way that they lead from the directory of the root, and a regular file at its
end; and no two files of the graph have paths that lead to the same place. -/
theorem resolve_below_root (r : Resolver) (fs : FileSystem) :
    (∀ p, r.Opens fs p → ∃ names, p = ⟨.root, r.root ++ names⟩ ∧
      (∀ name ∈ names, ValidName name) ∧
      ∀ root loc, fs.openDirectory [] r.rootPath = .ok root →
        fs.locate [] false p = .ok (.taken loc) → loc = root ++ names) ∧
    ∀ g, (r.resolve fs).result = .ok g →
      ∃ root, fs.openDirectory [] r.rootPath = .ok root ∧ fs.find? root = some .directory ∧
        (fs.Stands r.root → root = r.root) ∧
        (∀ file ∈ g.files,
          r.path file = ⟨.root, r.root ++ Path.names file⟩ ∧
          (∀ name ∈ Path.names file, ValidName name) ∧
          (∃ content, fs.find? (root ++ Path.names file) = some (.file content)) ∧
          ∀ above below, root ++ Path.names file = above ++ below → below ≠ [] →
            fs.find? above = some .directory) ∧
        ∀ file ∈ g.files, ∀ other ∈ g.files,
          fs.locate [] false (r.path file) = fs.locate [] false (r.path other) → file = other := by
  refine ⟨fun p hopen => hopen.exists_names, fun g h => ?_⟩
  obtain ⟨root, hroot⟩ := exists_root h
  refine ⟨root, hroot, (FileSystem.openDirectory_eq_ok_iff.1 hroot).2, eq_root_of_stands hroot,
    fun file hfile => ?_, fun file hfile other hother => eq_of_locate_eq h hfile hother⟩
  obtain ⟨root', hlies, hcontent, -⟩ := liesAt_of_mem_files h hfile
  cases hroot.symm.trans hlies.1
  refine ⟨hlies.path_eq, hlies.validName, hcontent, fun above below heq hne => ?_⟩
  obtain ⟨content, hfind⟩ := hcontent
  rw [heq] at hfind
  exact FileSystem.find?_above hfind hne

/-- Each of the two files is found by the walk or by an include that leaves the root and comes back
to it, and no name stands for both. -/
theorem resolve_below_root_cyclic :
    (cyclic.resolve cyclicTree).result = .ok cyclicGraph ∧
    (∃ content, cyclicTree.find? ["p", "a.c"] = some (.file content)) ∧
    cyclicTree.locate [] false (cyclic.path "a.c") ≠ cyclicTree.locate [] false (cyclic.path "h") := by
  obtain ⟨root, -, -, hroot, hfiles, hdistinct⟩ :=
    (resolve_below_root cyclic cyclicTree).2 cyclicGraph resolve_cyclic
  have hp : root = ["p"] := hroot ⟨.directory, by decide, nofun⟩
  subst hp
  refine ⟨resolve_cyclic, ?_, fun heq => ?_⟩
  · have hnames : Path.names "a.c" = ["a.c"] := by decide +kernel
    have hfile := (hfiles "a.c" (by decide)).2.2.1
    rwa [hnames] at hfile
  · exact absurd (hdistinct "a.c" (by decide) "h" (by decide) heq) (by decide)

end Resolver

end MakeDeps
