import MakeDeps.Proofs.Library
import MakeDeps.Proofs.Resolver.ScanOrder

/-!
# The libraries of a project

A library joins the list when the first line that asks for it is read. So the list holds what the
scanned files ask for, file by file and line by line, each library where it comes first:
`libraries_eq`. Which files these are, and in which order they come, is read off the graph.
-/

namespace MakeDeps

/-- The library that a directive asks for. An empty name asks for none. -/
def Directive.library? (table : String → Option String) : Directive → Option String
  | .systemHeader header => (table header).filter (· ≠ "")
  | .localFile _ => none

/-- The directive includes a header of the system for which there is this library. -/
lemma Directive.library?_eq_some_iff {table : String → Option String} {directive : Directive}
    {library : String} : directive.library? table = some library ↔
      library ≠ "" ∧ ∃ header, directive = .systemHeader header ∧ table header = some library := by
  cases directive with
  | systemHeader header =>
    simp [library?, Option.filter_eq_some_iff, and_comm]
  | localFile target => simp [library?]

namespace Findings

variable {f : Findings} {asked : List String}

/-- A library that is needed is listed unless it has been asked for before. -/
lemma libraries_addNeed (h : f.libraries = asked.eraseDups) (file : String)
    (need : String × String) :
    (f.addNeed file need).libraries = (asked ++ [need.2]).eraseDups := by
  rw [List.eraseDups_append]
  unfold addNeed
  split
  · next hknown =>
    rw [h, List.mem_eraseDups] at hknown
    simp [List.removeAll, hknown, h]
  · next hnew =>
    rw [h, List.mem_eraseDups] at hnew
    simp [List.removeAll, List.eraseDups_cons, hnew, h]

/-- The libraries that a scan asks for come behind those before, without repetitions. -/
lemma libraries_addFile (h : f.libraries = asked.eraseDups) (file : String) (scan : Scan) :
    (f.addFile file scan).libraries = (asked ++ scan.needs.map Prod.snd).eraseDups := by
  have needs : ∀ (needs : List (String × String)) (f : Findings) (asked : List String),
      f.libraries = asked.eraseDups →
      (needs.foldl (addNeed file) f).libraries = (asked ++ needs.map Prod.snd).eraseDups := by
    intro needs
    induction needs with
    | nil => simp
    | cons need needs ih =>
      intro f asked h
      rw [List.foldl_cons, ih _ _ (libraries_addNeed h file need), List.append_assoc]
      rfl
  exact needs scan.needs ⟨f.libraries, f.log ++ [.scanning file]⟩ asked h

end Findings

namespace Resolver
open Search

/-- The libraries that a file asks for, line by line. -/
def asked (r : Resolver) (fs : FileSystem) (table : String → Option String) (file : String) :
    List String :=
  match fs.read [] (r.path file) with
  | .ok content => (Directive.ofContent content).filterMap (Directive.library? table)
  | .error _ => []

variable {r : Resolver} {fs : FileSystem} {g : Graph} {file library : String}

/-- Some line of the file asks for the library. -/
lemma mem_asked_iff {table : String → Option String} :
    library ∈ r.asked fs table file ↔ library ≠ "" ∧ ∃ content header,
      fs.read [] (r.path file) = .ok content ∧
      .systemHeader header ∈ Directive.ofContent content ∧ table header = some library := by
  unfold asked
  cases fs.read [] (r.path file) with
  | error fault => simp
  | ok content =>
    simp only [List.mem_filterMap, Directive.library?_eq_some_iff, Except.ok.injEq,
      exists_and_left, exists_eq_left']
    constructor
    · rintro ⟨_, hmem, hne, header, rfl, hheader⟩
      exact ⟨hne, header, hmem, hheader⟩
    · rintro ⟨hne, header, hmem, hheader⟩
      exact ⟨_, hmem, hne, header, rfl, hheader⟩

/-- What is needed for a directive is its library. -/
lemma need?_eq (r : Resolver) (directive : Directive) :
    (r.need? directive).map Prod.snd = directive.library? r.libraries.library? := by
  cases directive with
  | localFile target => rfl
  | systemHeader header =>
    cases hlibrary : r.libraries.library? header with
    | none => simp [need?, Directive.library?, hlibrary]
    | some library =>
      by_cases hempty : library = ""
      · simp [need?, Directive.library?, hlibrary, hempty, Option.filter]
      · simp [need?, Directive.library?, hlibrary, hempty, Option.filter]

/-- No line of a listed file is left out, so what its scan needs is what the file asks for. -/
lemma needs_eq (h : (r.resolve fs).result = .ok g) (hfile : file ∈ g.files) :
    (r.scan fs file).needs.map Prod.snd = r.asked fs r.libraries.library? file := by
  obtain ⟨located, ⟨content, hread, hlocated⟩, -⟩ := located_of_mem_files h hfile
  have hleads := exists_mapM_eq_ok_iff.1 ⟨located, mapM_eq_ok_iff.2 hlocated⟩
  have hfollowed : ∀ directive ∈ Directive.ofContent content, r.isFollowed fs file directive := by
    intro directive hmem
    cases directive with
    | systemHeader header => rfl
    | localFile target =>
      obtain ⟨other, hlocate⟩ := hleads target (mem_localTargets.2 hmem)
      simp [isFollowed, hlocate, Except.isOk, Except.toBool]
  simp only [scan, asked, hread, List.takeWhile_eq_self_iff.2 hfollowed, List.map_filterMap,
    need?_eq]

/-- The libraries of several scans come in their order, without repetitions. -/
lemma libraries_foldl_noteScan (files : List String) {f : Findings} {asked : List String}
    (h : f.libraries = asked.eraseDups) :
    (files.foldl (r.noteScan fs) f).libraries =
      (asked ++ files.flatMap fun file => (r.scan fs file).needs.map Prod.snd).eraseDups := by
  induction files generalizing f asked with
  | nil => simpa using h
  | cons file files ih =>
    rw [List.foldl_cons, noteScan, ih (Findings.libraries_addFile h file _), List.append_assoc]
    rfl

/-- The libraries are what the files ask for in the order in which they are scanned, each library
where it is asked for first. -/
lemma libraries_eq (h : (r.resolve fs).result = .ok g) :
    g.libraries = (((r.listing fs).sources.flatMap g.closure).eraseDups.flatMap
      (r.asked fs r.libraries.library?)).eraseDups := by
  have hscanned : g.libraries = ((scanned (r.resolve fs).log).flatMap fun file =>
      (r.scan fs file).needs.map Prod.snd).eraseDups := by
    obtain ⟨m, v, rfl, -⟩ := exists_visits_of_resolve h
    obtain ⟨added, hseen, hnotes⟩ := v.seen_append
    have hstart : (Findings.mk [] []).libraries = ([] : List String).eraseDups :=
      List.eraseDups_nil.symm
    rw [v.scanned_eq, hseen]
    show m.notes.libraries = _
    rw [hnotes]
    exact libraries_foldl_noteScan added hstart
  have hneeds : ∀ file ∈ scanned (r.resolve fs).log,
      (r.scan fs file).needs.map Prod.snd = r.asked fs r.libraries.library? file :=
    fun file hfile => needs_eq h ((mem_scanned_iff h).1 hfile)
  rw [hscanned, List.flatMap_congr hneeds, scanned_eq_closures h]

/-- The scanned files are those that a source reaches. -/
lemma mem_libraries_iff (h : (r.resolve fs).result = .ok g) :
    library ∈ g.libraries ↔ ∃ source ∈ (r.listing fs).sources, ∃ file,
      Relation.ReflTransGen (r.Includes fs) source file ∧
      library ∈ r.asked fs r.libraries.library? file := by
  rw [libraries_eq h, List.mem_eraseDups, List.mem_flatMap, ← scanned_eq_closures h]
  simp only [mem_scanned_iff h]
  constructor
  · rintro ⟨file, hfile, hasked⟩
    obtain ⟨source, hsource, path⟩ := exists_source_of_mem_files h hfile
    exact ⟨source, hsource, file, path, hasked⟩
  · rintro ⟨source, hsource, file, path, hasked⟩
    exact ⟨file, (encloses_files h).mem_of_reaches hsource path, hasked⟩

end Resolver

end MakeDeps
