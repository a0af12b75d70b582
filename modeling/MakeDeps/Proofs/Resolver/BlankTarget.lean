import MakeDeps.Proofs.Directive.Plain
import MakeDeps.Proofs.FileSystem.Spelling
import MakeDeps.Proofs.Resolver.Location
import MakeDeps.Proofs.Search.Failure

/-!
# Includes without a target

A line with nothing but blanks between its quotes is an include without a target. It leads from a
file to the directory that the file lies in (`LiesAt.locate_empty`), which is then taken for an
included file and cannot be read. So no file of a graph has such a line, and apart from it a
directive can be written back: `resolve_blank`.
-/

namespace MakeDeps

namespace FileSystem

variable {fs : FileSystem} {loc here : Location} {names above below : List String}

/-- A path that goes on further is too long if the path is. -/
lemma isTooLong_above (h : isTooLong ⟨.root, above ++ below⟩ = false) :
    isTooLong ⟨.root, above⟩ = false := by
  have htext : ∀ parts, Path.text ⟨.root, parts⟩ = "/" ++ "/".intercalate parts := fun _ => rfl
  have hlong : (Path.text ⟨.root, above ++ below⟩).utf8ByteSize < maxPath := by
    simpa [isTooLong] using h
  refine isTooLong_of_sublist ?_ hlong
  rw [htext, htext, String.toList_append, String.toList_append, String.toList_intercalate,
    String.toList_intercalate, List.map_append]
  exact (List.Sublist.refl _).append (Path.sublist_intercalate (List.sublist_append_left _ _))

/-- Names that lead to where something stands are resolved one by one. -/
lemma canonicalFrom_names {nesting : Nat} {fresh : List Location}
    {known : List (Location × Location)}
    (h : fs.Stands (here ++ names)) (hshort : isTooLong ⟨.root, here ++ names⟩ = false) :
    fs.canonicalFrom nesting fresh known here [] names = .ok (here ++ names) := by
  induction names generalizing here with
  | nil => rw [canonicalFrom, List.append_nil]
  | cons name names ih =>
    obtain ⟨hne, hdot, hdots, -, hnul, hsize⟩ := h.validName name (by simp)
    rw [← List.singleton_append, ← List.append_assoc] at h hshort
    obtain ⟨e, hfind, hlink⟩ := h.above
    have hdir : fs.find? here = some .directory := find?_above hfind (by simp)
    have hlook : fs.lookAt here name = .ok e := lookAt_eq_ok_iff.2 ⟨hdir, hsize, hfind⟩
    have hnames := ih h hshort
    rw [List.append_assoc, List.singleton_append] at hnames
    rw [canonicalFrom, if_neg (not_or.2 ⟨hne, hdot⟩), if_neg hdots, if_neg hnul,
      isTooLong_above hshort, if_neg Bool.false_ne_true, hlook]
    cases e with
    | link target => exact absurd rfl (hlink target)
    | file content => exact hnames
    | directory => exact hnames

/-- A location where something stands is canonical. -/
lemma canonical_self (nesting : Nat) (h : fs.Stands loc)
    (hshort : isTooLong ⟨.root, loc⟩ = false) : fs.canonical nesting [] ⟨.root, loc⟩ = .ok loc := by
  have hbelow : fs.Stands ([] ++ loc) := h
  exact canonicalFrom_names hbelow hshort

end FileSystem

namespace Resolver
open Directive Search

variable {r : Resolver} {fs : FileSystem} {g : Graph} {file other : String} {names : List String}
  {root : Location} {content : List UInt8}

/-- The directory that the file lies in, as files are named. -/
def folderOf (file : String) : String :=
  fileName (Path.names file).dropLast

namespace LiesAt

/-- A file that can be read lies in a directory, which is the root or lies below it. -/
lemma folder (h : r.LiesAt fs file root names) (hread : fs.read [] (r.path file) = .ok content) :
    r.LiesAt fs (folderOf file) root names.dropLast ∧
      fs.find? (root ++ names.dropLast) = some .directory := by
  have hne := h.names_ne_nil hread
  have hfolder := FileSystem.find?_dropLast (h.find?_of_read hread).2
  rw [List.dropLast_append_of_ne_nil hne] at hfolder
  refine ⟨⟨h.1, ⟨.directory, hfolder, nofun⟩, ?_⟩, hfolder⟩
  rw [folderOf, h.names_eq hne]

/-- The directory of a file that can be read has a path that is not too long. -/
lemma isTooLong_folder (h : r.LiesAt fs file root names)
    (hread : fs.read [] (r.path file) = .ok content) :
    FileSystem.isTooLong ⟨.root, r.root ++ names.dropLast⟩ = false := by
  obtain ⟨hshort, -⟩ := h.find?_of_read hread
  obtain ⟨last, hlast⟩ := List.dropLast_prefix names
  rw [h.path_eq, ← hlast, ← List.append_assoc] at hshort
  exact FileSystem.isTooLong_above hshort

/-- The directory that a file lies in cannot be read like a file. -/
lemma read_folder (h : r.LiesAt fs file root names)
    (hread : fs.read [] (r.path file) = .ok content) :
    fs.read [] (r.path (folderOf file)) = .error (.refused .isDirectory) := by
  obtain ⟨hfolder, hfind⟩ := h.folder hread
  have hlocate := hfolder.locate_eq
  rw [hfolder.path_eq, h.isTooLong_folder hread, if_neg Bool.false_ne_true] at hlocate
  rw [FileSystem.read, hfolder.path_eq, hlocate]
  simp only [hfind]

/-- Without a target, an include leads to the directory of the file, if the root is canonical. -/
lemma locate_empty (h : r.LiesAt fs file r.root names)
    (hread : fs.read [] (r.path file) = .ok content) :
    r.locate fs file "" = .ok (folderOf file) := by
  obtain ⟨hfolder, -⟩ := h.folder hread
  have hpath : r.includePath file "" = ⟨.root, r.root ++ names.dropLast⟩ := by
    have hempty : Path.ofString "" = ⟨.relative, []⟩ := by decide +kernel
    rw [includePath, h.path_eq, hempty, Path.parent, Path.join, List.append_nil,
      List.dropLast_append_of_ne_nil (h.names_ne_nil hread)]
  have hcanonical := FileSystem.canonical_self r.nesting.links hfolder.2.1
    (h.isTooLong_folder hread)
  rw [locate, hpath, hcanonical]
  simp only [Text.dropStart?_eq_some_iff.2 rfl]
  rw [hfolder.2.2]

/-- An empty target is located at the directory of the file. -/
lemma eq_folder_of_locate (h : r.LiesAt fs file root names)
    (hread : fs.read [] (r.path file) = .ok content) (hlocate : r.locate fs file "" = .ok other) :
    other = folderOf file := by
  obtain ⟨names', -, hstands⟩ := stands_of_locate hlocate
  cases eq_root_of_stands h.1 hstands.above
  rw [h.locate_empty hread] at hlocate
  cases hlocate
  rfl

end LiesAt

/-- In a graph, no file has an include without a target. It would include its directory. -/
lemma localFile_empty_not_mem (h : (r.resolve fs).result = .ok g) (hfile : file ∈ g.files)
    (hread : fs.read [] (r.path file) = .ok content) :
    .localFile "" ∉ Directive.ofContent content := by
  intro hmem
  obtain ⟨root, names, hlies⟩ := exists_liesAt_of_scanned ((mem_scanned_iff h).2 hfile)
  obtain ⟨located, ⟨content', hread', hlocated⟩, -⟩ := located_of_mem_files h hfile
  cases hread.symm.trans hread'
  obtain ⟨other, hother⟩ :=
    exists_mapM_eq_ok_iff.1 ⟨located, mapM_eq_ok_iff.2 hlocated⟩ "" (mem_localTargets.2 hmem)
  have hfolder : folderOf file ∈ g.files := by
    rw [← hlies.eq_folder_of_locate hread hother]
    exact (encloses_files h).2 file hfile other ⟨content, "", hread, hmem, hother⟩
  obtain ⟨-, ⟨_, hreadable, -⟩, -⟩ := located_of_mem_files h hfolder
  rw [hlies.read_folder hread] at hreadable
  cases hreadable

/-- A directive that has a target is read back from its plain form. Without a target it is not; a
line is such a directive exactly if it has only blanks between its delimiters. No file of a graph
has an include of this kind: it leads from a file that has been scanned to the directory of this
file, or nowhere if the root is not canonical, and the directory cannot be scanned. -/
theorem resolve_blank (line : List Char) (r : Resolver) (fs : FileSystem) :
    (∀ d, Directive.ofLine line = some d →
      (d.target = "" ↔ ∃ s : Spelling, s.line = line ∧ ∀ c ∈ s.body, Text.isBlank c = true) ∧
      Directive.ofLine d.plain = if d.target = "" then none else some d) ∧
    (∀ g, (r.resolve fs).result = .ok g → ∀ file ∈ g.files, ∀ content,
      fs.read [] (r.path file) = .ok content → .localFile "" ∉ Directive.ofContent content) ∧
    ∀ file ∈ scanned (r.resolve fs).log, ∀ content, fs.read [] (r.path file) = .ok content →
      (fs.Stands r.root → r.locate fs file "" = .ok (folderOf file)) ∧
      (∀ other, r.locate fs file "" = .ok other → other = folderOf file) ∧
      (r.scan fs (folderOf file)).includes =
        .error (.resolve (.unreadable (folderOf file) .isDirectory)) := by
  refine ⟨fun d h => ⟨target_eq_empty_iff h, ?_⟩, ?_, ?_⟩
  · split
    · next hempty => exact ofLine_plain_of_empty hempty
    · next hne => exact ofLine_plain h hne
  · exact fun g h file hfile content => localFile_empty_not_mem h hfile
  · intro file hfile content hread
    obtain ⟨root, names, hlies⟩ := exists_liesAt_of_scanned hfile
    refine ⟨fun hstands => ?_, fun other => hlies.eq_folder_of_locate hread, ?_⟩
    · cases eq_root_of_stands hlies.1 hstands
      exact hlies.locate_empty hread
    · rw [scan, hlies.read_folder hread]

/-- A project whose only file includes a blank. -/
def blankTree : FileSystem where
  entries := [
    (["p"], .directory),
    (["p", "main.c"], .file (Text.Utf8.encode "#include \" \"\n".toList)) ]
  unique := by decide
  valid := by decide
  rooted := by
    simp only [List.forall_mem_cons]
    refine ⟨⟨[], "p", ?_⟩, ⟨["p"], "main.c", ?_⟩, by simp⟩
    all_goals exact ⟨rfl, by decide, by simp⟩

/-- A blank target is a directive on its line, and none on its plain line; it fails to be read. -/
theorem resolve_blankTree :
    Directive.ofLine "#include \" \"".toList = some (.localFile "") ∧
    Directive.ofLine "#include < >".toList = some (.systemHeader "") ∧
    Directive.ofLine (Directive.localFile "").plain = none ∧
    (cyclic.resolve blankTree).result = .error (.resolve (.unreadable "." .isDirectory)) := by
  refine ⟨by decide, by decide, by decide, ?_⟩
  cbv

end Resolver

end MakeDeps
