import MakeDeps.Proofs.FileSystem.Shape
import MakeDeps.Proofs.Resolver.Location

/-!
# What a resolution does not read

A resolution reads the files that it scans and no others. Two trees of the same shape that agree on
these files have the same outcome: `resolve_unscanned`.
-/

namespace MakeDeps.Resolver
open Search

/-- The resolution scans what stands at the location. -/
def Scans (r : Resolver) (fs : FileSystem) (loc : Location) : Prop :=
  ∃ file ∈ scanned (r.resolve fs).log, fs.locate [] false (r.path file) = .ok (.taken loc)

/-- The location lies outside the root, or it is that of a file below the root that is hidden or no
source, and that no scanned file includes. A header of the system that lies below the root is one of
these files: a line that asks for it does not include it. -/
inductive IsUnused (r : Resolver) (fs : FileSystem) : Location → Prop where
  | outside {loc} :
    (∀ root, fs.openDirectory [] r.rootPath = .ok root → ¬root <+: loc) → IsUnused r fs loc
  | notIncluded {root names} :
    fs.openDirectory [] r.rootPath = .ok root →
    (∃ name ∈ names, FileSystem.isHidden name = true) ∨
      Path.hasExtension (fileName names) r.extension = false →
    (∀ file ∈ scanned (r.resolve fs).log, ¬r.Includes fs file (fileName names)) →
    IsUnused r fs (root ++ names)

variable {r : Resolver} {fs fs' : FileSystem} {m : Memory String Findings}
  {failure : Option Failure} {file : String} {loc root : Location} {names other : List String}

/-- As long as two predicates agree on a list, they take the same from its front. -/
lemma takeWhile_congr {α : Type} {p q : α → Bool} {xs : List α} (h : ∀ x ∈ xs, p x = q x) :
    xs.takeWhile p = xs.takeWhile q := by
  induction xs with
  | nil => rfl
  | cons x xs ih =>
    rw [List.takeWhile_cons, List.takeWhile_cons, h x List.mem_cons_self,
      ih fun y hy => h y (List.mem_cons_of_mem _ hy)]

/-- Two functions that agree on a list map it alike. -/
lemma mapM_congr {α β ε : Type} {f g : α → Except ε β} {xs : List α} (h : ∀ x ∈ xs, f x = g x) :
    xs.mapM f = xs.mapM g := by
  induction xs with
  | nil => rfl
  | cons x xs ih =>
    rw [List.mapM_cons, List.mapM_cons, h x List.mem_cons_self,
      ih fun y hy => h y (List.mem_cons_of_mem _ hy)]

/-- The scan of a file depends on what it says, and on where the lines of the file lead. -/
lemma scan_congr (hread : fs'.read [] (r.path file) = fs.read [] (r.path file))
    (hlocate : ∀ content target, fs.read [] (r.path file) = .ok content →
      .localFile target ∈ Directive.ofContent content →
      r.locate fs' file target = r.locate fs file target) :
    r.scan fs' file = r.scan fs file := by
  unfold scan
  rw [hread]
  split
  · rfl
  · rfl
  · next content hcontent =>
    have hfollowed : ∀ directive ∈ Directive.ofContent content,
        r.isFollowed fs' file directive = r.isFollowed fs file directive := by
      intro directive hdirective
      cases directive with
      | localFile target =>
        rw [isFollowed, isFollowed, hlocate content target hcontent hdirective]
      | systemHeader header => rfl
    have hlocated : ∀ target ∈ localTargets (Directive.ofContent content),
        r.locate fs' file target = r.locate fs file target :=
      fun target htarget => hlocate content target hcontent (mem_localTargets.1 htarget)
    simp only [takeWhile_congr hfollowed, mapM_congr hlocated]

/-- A visit is the same in a tree with the same sources and the same scans. -/
lemma VisitsSources.congr (v : r.VisitsSources fs m failure)
    (hlisting : r.listing fs' = r.listing fs)
    (hscan : ∀ file ∈ m.seen, r.scan fs' file = r.scan fs file) :
    r.VisitsSources fs' m failure := by
  rw [VisitsSources, hlisting]
  refine Search.Visits.congr v (fun file hfile => ?_) fun file hfile findings => ?_
  · rw [includesOf, hscan file hfile, includesOf]
  · rw [noteScan, hscan file hfile, noteScan]

/-- A resolution depends on the listing of sources and on the scans that it makes. -/
lemma resolve_congr (hlisting : r.listing fs' = r.listing fs)
    (hscan : ∀ file ∈ scanned (r.resolve fs).log, r.scan fs' file = r.scan fs file) :
    r.resolve fs' = r.resolve fs := by
  obtain ⟨m, failure, v⟩ := r.exists_visitsSources fs
  rw [v.scanned_eq] at hscan
  rw [(v.congr hlisting hscan).resolve_eq, v.resolve_eq, hlisting]

/-- Names lead to a directory from the root, or they do not. -/
lemma leadsToFolder_iff : r.leadsToFolder fs names = true ↔
    fs.isDirectory [] (r.rootPath.join ⟨.relative, names⟩) = .ok true := by
  unfold leadsToFolder
  split <;> simp_all

/-- Names lead to a directory from the root as they did before files were added. -/
lemma leadsToFolder_of_addsFiles (h : fs.AddsFiles fs') :
    r.leadsToFolder fs' = r.leadsToFolder fs := by
  funext names
  rw [Bool.eq_iff_iff, leadsToFolder_iff, leadsToFolder_iff, h.isDirectory_iff]

/-- A walk cannot get past the same things as before files were added. -/
lemma refusal?_of_addsFiles (h : fs.AddsFiles fs') : r.refusal? fs' = r.refusal? fs := by
  funext loc names
  rw [refusal?, refusal?, leadsToFolder_of_addsFiles h, h.isFolder]

/-- The listing of sources does not depend on what the files hold. -/
lemma listing_congr (h : fs.SameShape fs') : r.listing fs' = r.listing fs := by
  simp only [listing, h.openDirectory, h.walk, h.isFile, leadsToFolder_of_addsFiles h.addsFiles,
    refusal?_of_addsFiles h.addsFiles]

/-- What an include means does not depend on what the files hold. -/
lemma locate_congr (h : fs.SameShape fs') : r.locate fs' = r.locate fs := by
  funext file target
  simp only [locate, h.canonical]

/-- What a resolver is created from does not depend on what the files hold. -/
lemma create_congr (h : fs.SameShape fs') : create fs' = create fs := by
  funext cwd root extension libraries nesting
  simp only [create, h.isDirectory, h.addsFiles.settled]

namespace LiesAt

/-- A file lies at the end of one list of names. -/
lemma unique (h : r.LiesAt fs file root names) (hother : r.LiesAt fs file root other) :
    names = other := by
  -- the root is named by a dot, which is not the name of anything else
  have hroot {names : List String} (h : r.LiesAt fs file root names) (hfile : file = ".") :
      names = [] := by
    by_contra hne
    have hnames := h.names_eq hne
    rw [hfile] at hnames
    have hdot : ValidName "." := h.validName "." (by rw [← hnames]; decide +kernel)
    exact absurd hdot (by decide)
  have hdot {names : List String} (h : r.LiesAt fs file root names) (hnil : names = []) :
      file = "." := by
    rw [h.2.2, hnil]
    decide
  by_cases hnames : names = []
  · rw [hnames, hroot hother (hdot h hnames)]
  · by_cases hother' : other = []
    · rw [hother', hroot h (hdot hother hother')]
    · rw [← h.names_eq hnames, hother.names_eq hother']

end LiesAt

/-- A source is a file that the walk meets. -/
lemma exists_walk_of_source (h : file ∈ (r.listing fs).sources) :
    ∃ root names, fs.openDirectory [] r.rootPath = .ok root ∧
      names ∈ fs.walk (r.leadsToFolder fs) root ∧ fs.isFile (root ++ names) = true ∧
      file = fileName names := by
  unfold listing at h
  split at h
  · cases h
  · next root hroot =>
    obtain ⟨names, hmem, rfl⟩ := List.mem_map.1 (List.mem_filter.1 h).1
    obtain ⟨hmem, hfile⟩ := List.mem_filter.1 hmem
    exact ⟨root, names, hroot, (List.takeWhile_sublist _).subset hmem, hfile, rfl⟩

/-- What is scanned is a source or included by something that is scanned. -/
lemma source_or_included (h : file ∈ scanned (r.resolve fs).log) :
    file ∈ (r.listing fs).sources ∨
      ∃ earlier ∈ scanned (r.resolve fs).log, r.Includes fs earlier file := by
  obtain ⟨m, failure, v⟩ := r.exists_visitsSources fs
  rw [v.scanned_eq] at h ⊢
  rcases v.exists_edge_of_seen file h with hstart | hsource | ⟨earlier, hearlier, hedge⟩
  · simp [Memory.start] at hstart
  · exact .inl hsource
  · exact .inr ⟨earlier, hearlier, includes_of_edge hedge⟩

/-- What is unused is not scanned. -/
lemma IsUnused.not_scans (h : r.IsUnused fs loc) : ¬r.Scans fs loc := by
  rintro ⟨file, hscanned, hlocate⟩
  obtain ⟨root, names, hlies⟩ := exists_liesAt_of_scanned hscanned
  rw [hlies.path_eq] at hlocate
  cases FileSystem.eq_of_locate_below hlies.1 hlies.2.1 hlocate
  generalize heq : root ++ names = loc at h
  cases h with
  | outside hout => exact hout root hlies.1 ⟨names, heq⟩
  | @notIncluded root' names' hroot hunused hincluded =>
    cases hlies.1.symm.trans hroot
    cases List.append_cancel_left heq
    rcases source_or_included hscanned with hsource | ⟨earlier, hearlier, hincludes⟩
    · obtain ⟨root', names', hroot', hwalk, hfile, hname⟩ := exists_walk_of_source hsource
      cases hlies.1.symm.trans hroot'
      obtain ⟨content, hfind⟩ := FileSystem.isFile_iff.1 hfile
      cases hlies.unique ⟨hroot', ⟨_, hfind, nofun⟩, hname⟩
      rcases hunused with ⟨name, hname, hhidden⟩ | hextension
      · rw [(FileSystem.mem_walk_iff.1 hwalk).2.1 name hname] at hhidden
        cases hhidden
      · rw [← hlies.2.2, hasExtension_of_mem_sources hsource] at hextension
        cases hextension
    · exact hincluded earlier hearlier (hlies.2.2 ▸ hincludes)

/-- Trees of the same shape are the same to a resolver that is created, and to a resolution if they
agree on the files that it scans, whether it succeeds or not. Files outside the root are not
scanned, nor are files that are hidden or no sources unless a scanned file includes them. -/
theorem resolve_unscanned (h : fs.SameShape fs') :
    (∀ cwd path extension libraries nesting,
      create fs' cwd path extension libraries nesting =
        create fs cwd path extension libraries nesting) ∧
    ∀ r : Resolver,
      ((∀ loc, r.Scans fs loc → fs'.find? loc = fs.find? loc) → r.resolve fs' = r.resolve fs) ∧
      ∀ loc, r.IsUnused fs loc → ¬r.Scans fs loc := by
  refine ⟨fun cwd path extension libraries nesting => by rw [create_congr h], fun r => ⟨fun hkept => ?_,
    fun loc hunused => hunused.not_scans⟩⟩
  refine resolve_congr (listing_congr h) fun file hscanned => ?_
  have hread : fs'.read [] (r.path file) = fs.read [] (r.path file) :=
    h.read fun loc hlocate => hkept loc ⟨file, hscanned, hlocate⟩
  exact scan_congr hread fun _ _ _ _ => by rw [locate_congr h]

/-- A project that has a file of the same name as a header of the system. -/
def headerTree (content : String) : FileSystem :=
  cyclicTree.place ["p"] "math.h" (.file (Text.Utf8.encode content.toList))

set_option maxRecDepth 4000 in
/-- The cyclic tree with an empty header of the system's name is resolved to the same graph. -/
lemma resolve_header : (cyclic.resolve (headerTree "")).result = .ok cyclicGraph := by
  cbv

/-- What stands in the tree: the header, and what the cyclic tree has. -/
lemma find?_headerTree (content : String) (loc : Location) : (headerTree content).find? loc =
    if loc = ["p", "math.h"] then some (.file (Text.Utf8.encode content.toList))
    else cyclicTree.find? loc :=
  FileSystem.find?_place_file (by decide) (by decide) (by decide) loc

/-- The header is not read, although one of the sources asks for it. -/
theorem resolve_unscanned_header :
    (headerTree "").find? ["p", "math.h"] ≠
      (headerTree "#include \"gone\"").find? ["p", "math.h"] ∧
    cyclic.resolve (headerTree "#include \"gone\"") = cyclic.resolve (headerTree "") := by
  have hshape : (headerTree "").SameShape (headerTree "#include \"gone\"") :=
    FileSystem.sameShape_place (by decide) (by decide) (by decide)
  obtain ⟨hsame, hunused⟩ := (resolve_unscanned hshape).2 cyclic
  have hroot : (headerTree "").openDirectory [] cyclic.rootPath = .ok ["p"] := by
    cbv
  have hnone : ∀ file ∈ cyclicGraph.files,
      fileName ["math.h"] ∉ cyclicGraph.dependenciesOf file := by
    decide
  have hheader : cyclic.IsUnused (headerTree "") (["p"] ++ ["math.h"]) := by
    refine .notIncluded hroot (.inr (by decide)) fun file hscanned hincludes => ?_
    have hfile := (mem_scanned_iff resolve_header).1 hscanned
    exact hnone file hfile ((mem_dependenciesOf_iff resolve_header hfile).2 hincludes)
  refine ⟨?_, hsame fun loc hscans => ?_⟩
  · rw [find?_headerTree, find?_headerTree]
    decide
  · have hloc : loc ≠ ["p", "math.h"] := by
      rintro rfl
      exact hunused _ hheader hscans
    rw [find?_headerTree, find?_headerTree, if_neg hloc, if_neg hloc]

end MakeDeps.Resolver
