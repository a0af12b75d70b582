import MakeDeps.Proofs.Resolver.Location

/-!
# The failure that a resolution ends with

A file fails if it cannot be read, or else with the first of its includes that leads nowhere or out
of the root. A resolution meets files in the order of depth-first preorders from its sources, in
which a file that fails leads no further, and ends with the first failure: `resolve_first_failure`.
The walk for sources may fail where no file does: `resolve_fails_otherwise`.
-/

namespace MakeDeps.Resolver
open Search

/-- The include leads to something that is there, below the root. -/
def Leads (r : Resolver) (fs : FileSystem) (file target : String) : Prop :=
  ∃ loc, fs.canonical r.nesting.links [] (r.includePath file target) = .ok loc ∧ r.root <+: loc

/-- The include ends a resolution with this failure. -/
inductive IncludeFails (r : Resolver) (fs : FileSystem) (file target : String) :
    Failure → Prop where
  | missing {cause} :
    fs.canonical r.nesting.links [] (r.includePath file target) = .error (.refused cause) →
    IncludeFails r fs file target (.resolve (.missing target file))
  | outside {loc} :
    fs.canonical r.nesting.links [] (r.includePath file target) = .ok loc → ¬r.root <+: loc →
    IncludeFails r fs file target (.resolve (.outside target file))
  | nul :
    fs.canonical r.nesting.links [] (r.includePath file target) = .error .nul →
    IncludeFails r fs file target .nul

/-- The file can be read, and each of its includes leads to something below the root. -/
def IsSound (r : Resolver) (fs : FileSystem) (file : String) : Prop :=
  ∃ content, fs.read [] (r.path file) = .ok content ∧
    ∀ target, .localFile target ∈ Directive.ofContent content → r.Leads fs file target

/-- The file ends a resolution with this failure. -/
inductive FileFails (r : Resolver) (fs : FileSystem) (file : String) : Failure → Prop where
  | unreadable {cause} :
    fs.read [] (r.path file) = .error (.refused cause) →
    FileFails r fs file (.resolve (.unreadable file cause))
  | line {content before target after failure} :
    fs.read [] (r.path file) = .ok content →
    localTargets (Directive.ofContent content) = before ++ target :: after →
    (∀ earlier ∈ before, r.Leads fs file earlier) → r.IncludeFails fs file target failure →
    FileFails r fs file failure

/-- The walk for sources ends early with this failure: the root cannot be opened, or the walk cannot
get past something that it meets. -/
inductive WalkFails (r : Resolver) (fs : FileSystem) : Failure → Prop where
  | root {fault} :
    fs.openDirectory [] r.rootPath = .error fault →
    WalkFails r fs (.ofFault r.rootPath.text fault)
  | blocked {root before names after failure} :
    fs.openDirectory [] r.rootPath = .ok root →
    fs.walk (r.leadsToFolder fs) root = before ++ names :: after →
    (∀ earlier ∈ before, ∀ failure, ¬r.Blocks fs root earlier failure) →
    r.Blocks fs root names failure →
    WalkFails r fs failure

/-- An order of files: the depth-first preorders from the sources, one after the other, each file
where it comes first. A file whose scan fails leads nowhere. -/
def IsSearchOrder (r : Resolver) (fs : FileSystem) (order : List String) : Prop :=
  ∃ preorders, List.Forall₂ (fun source preorder =>
      Traversal (successors (r.includesOf fs)) [] [source] preorder)
    (r.listing fs).sources preorders ∧ order = preorders.flatten.eraseDups

/-- The files that a source leads to, in depth-first preorder. -/
def preorderFrom (r : Resolver) (fs : FileSystem) (source : String) : List String :=
  preorder (successors (r.includesOf fs)) (r.files fs (r.listing fs).sources) [source]

/-- The files that all sources lead to, in the order in which a search meets them. -/
def searchOrder (r : Resolver) (fs : FileSystem) : List String :=
  ((r.listing fs).sources.flatMap (r.preorderFrom fs)).eraseDups

variable {r : Resolver} {fs : FileSystem} {file other target : String} {failure : Failure}

/-- An include that leads somewhere is located. -/
lemma Leads.exists_locate (h : r.Leads fs file target) :
    ∃ other, r.locate fs file target = .ok other := by
  obtain ⟨loc, hcanonical, names, hnames⟩ := h
  have hdrop := Text.dropStart?_eq_some_iff.2 hnames
  exact ⟨fileName names, by simp only [locate, hcanonical, hdrop]⟩

/-- An include that fails is not located, for the same reason. -/
lemma IncludeFails.locate_eq (h : r.IncludeFails fs file target failure) :
    r.locate fs file target = .error failure := by
  cases h with
  | missing hcanonical => simp only [locate, hcanonical]
  | nul hcanonical => simp only [locate, hcanonical]
  | outside hcanonical hout =>
    have hdrop : ∀ names, Text.dropStart? r.root _ ≠ some names :=
      fun names hdrop => hout ⟨names, Text.dropStart?_eq_some_iff.1 hdrop⟩
    simp only [locate, hcanonical, Option.eq_none_iff_forall_ne_some.2 hdrop]

/-- An include leads somewhere or fails. -/
lemma leads_or_fails (r : Resolver) (fs : FileSystem) (file target : String) :
    r.Leads fs file target ∨ ∃ failure, r.IncludeFails fs file target failure := by
  cases h : fs.canonical r.nesting.links [] (r.includePath file target) with
  | ok loc =>
    by_cases hin : r.root <+: loc
    · exact .inl ⟨loc, h, hin⟩
    · exact .inr ⟨_, .outside h hin⟩
  | error fault =>
    cases fault with
    | nul => exact .inr ⟨_, .nul h⟩
    | refused cause => exact .inr ⟨_, .missing h⟩

/-- An include is located if, and only if, it leads somewhere. -/
lemma exists_locate_iff :
    (∃ other, r.locate fs file target = .ok other) ↔ r.Leads fs file target := by
  refine ⟨fun ⟨other, hlocate⟩ => ?_, Leads.exists_locate⟩
  refine (r.leads_or_fails fs file target).resolve_right fun ⟨failure, hfails⟩ => ?_
  rw [hfails.locate_eq] at hlocate
  cases hlocate

/-- An include is not located if, and only if, it fails for that reason. -/
lemma locate_eq_error_iff :
    r.locate fs file target = .error failure ↔ r.IncludeFails fs file target failure := by
  refine ⟨fun hlocate => ?_, IncludeFails.locate_eq⟩
  rcases r.leads_or_fails fs file target with hleads | ⟨other, hfails⟩
  · obtain ⟨other, hother⟩ := hleads.exists_locate
    rw [hother] at hlocate
    cases hlocate
  · rw [hfails.locate_eq] at hlocate
    cases hlocate
    exact hfails

/-- The scan of a file succeeds exactly if the file is sound. -/
lemma exists_includesOf_iff :
    (∃ found, r.includesOf fs file = .ok found) ↔ r.IsSound fs file := by
  unfold includesOf scan IsSound
  cases fs.read [] (r.path file) with
  | error fault => cases fault <;> simp
  | ok content =>
    simp only [Except.ok.injEq, exists_eq_left', ← exists_locate_iff, ← mem_localTargets,
      ← exists_mapM_eq_ok_iff]
    cases (localTargets (Directive.ofContent content)).mapM (r.locate fs file) <;>
      simp [Except.map]

/-- The scan of a file fails as the file does, if its path is one that the system is asked for. -/
lemma includesOf_eq_error_iff (hnul : fs.read [] (r.path file) ≠ .error .nul) :
    r.includesOf fs file = .error failure ↔ r.FileFails fs file failure := by
  unfold includesOf scan
  cases hread : fs.read [] (r.path file) with
  | error fault =>
    cases fault with
    | nul => exact absurd hread hnul
    | refused cause =>
      constructor
      · intro h
        cases h
        exact .unreadable hread
      · intro h
        cases h with
        | unreadable hread' =>
          cases hread.symm.trans hread'
          rfl
        | line hread' _ _ _ => cases hread.symm.trans hread'
  | ok content =>
    have hmap : ((localTargets (Directive.ofContent content)).mapM (r.locate fs file)).map
        List.eraseDups = .error failure ↔
        (localTargets (Directive.ofContent content)).mapM (r.locate fs file) = .error failure := by
      cases (localTargets (Directive.ofContent content)).mapM (r.locate fs file) <;>
        simp [Except.map]
    simp only [hmap, mapM_eq_error_iff, findSome?_failure?_eq_some_iff, exists_locate_iff,
      locate_eq_error_iff]
    constructor
    · rintro ⟨before, target, after, heq, hbefore, hfails⟩
      exact .line hread heq hbefore hfails
    · intro h
      cases h with
      | unreadable hread' => cases hread.symm.trans hread'
      | line hread' heq hbefore hfails =>
        cases hread.symm.trans hread'
        exact ⟨_, _, _, heq, hbefore, hfails⟩

/-- The system is asked for the path of a file that lies below the root: it holds no NUL. -/
lemma LiesAt.read_ne_nul {root : Location} {names : List String}
    (h : r.LiesAt fs file root names) : fs.read [] (r.path file) ≠ .error .nul := by
  rw [FileSystem.read, h.locate_eq]
  split
  · next hlocate =>
    split at hlocate
    · cases hlocate
      simp
    · cases hlocate
  · simp
  · split <;> simp

/-- The walk has failed if the listing of sources says so. -/
lemma walkFails_iff : r.WalkFails fs failure ↔ (r.listing fs).failure = some failure := by
  unfold listing
  cases hroot : fs.openDirectory [] r.rootPath with
  | error fault =>
    constructor
    · intro h
      cases h with
      | root hroot' =>
        cases hroot.symm.trans hroot'
        rfl
      | blocked hroot' _ _ _ => cases hroot.symm.trans hroot'
    · intro h
      cases h
      exact .root hroot
  | ok root =>
    simp only [List.findSome?_eq_some_iff, refusal?_eq_some_iff, refusal?_eq_none_iff]
    constructor
    · intro h
      cases h with
      | root hroot' => cases hroot.symm.trans hroot'
      | @blocked _ before names after _ hroot' hwalk hbefore hblocks =>
        cases hroot.symm.trans hroot'
        exact ⟨before, names, after, hwalk, hblocks, hbefore⟩
    · rintro ⟨before, names, after, hwalk, hblocks, hbefore⟩
      exact .blocked hroot hwalk hbefore hblocks

/-- The walk from a directory fails only where directories are nested too deeply, or a path is too
long. -/
lemma WalkFails.exists_names (h : r.WalkFails fs failure)
    (hroot : fs.find? r.root = some .directory) : ∃ names,
      (names = [] ∨ names ∈ fs.walk (r.leadsToFolder fs) r.root) ∧
      r.Blocks fs r.root names failure := by
  have hstands : fs.Stands r.root := ⟨_, hroot, nofun⟩
  cases h with
  | root hfault =>
    rw [FileSystem.openDirectory, rootPath, FileSystem.locate_stands hstands] at hfault
    by_cases hlong : FileSystem.isTooLong ⟨.root, r.root⟩ = true
    · rw [if_pos hlong] at hfault
      cases hfault
      have hblocks : r.Blocks fs r.root []
          (.access ⟨.nameTooLong, Path.text ⟨.root, r.root ++ []⟩⟩) :=
        .tooLong (by simp) (by simpa using hlong)
      rw [List.append_nil] at hblocks
      exact ⟨[], .inl rfl, hblocks⟩
    · simp [hlong, hroot] at hfault
  | @blocked root before names after _ hopen hwalk _ hblocks =>
    cases eq_root_of_stands hopen hstands
    exact ⟨names, .inr (by simp [hwalk]), hblocks⟩

/-- Lists are related item by item if one is the other under a function. -/
lemma forall₂_iff_eq_map {α β : Type} {R : α → β → Prop} {f : α → β} {xs : List α} {ys : List β}
    (h : ∀ x ∈ xs, ∀ y, R x y ↔ y = f x) : List.Forall₂ R xs ys ↔ ys = xs.map f := by
  induction xs generalizing ys with
  | nil => rw [List.forall₂_nil_left_iff, List.map_nil]
  | cons x xs ih =>
    cases ys with
    | nil => simp
    | cons y ys =>
      rw [List.forall₂_cons, h x List.mem_cons_self,
        ih fun z hz => h z (List.mem_cons_of_mem _ hz), List.map_cons, List.cons.injEq]

/-- The traversals from a source are its preorder. -/
lemma traversal_iff_preorderFrom {source : String} (h : source ∈ (r.listing fs).sources)
    (order : List String) : Traversal (successors (r.includesOf fs)) [] [source] order ↔
      order = r.preorderFrom fs source := by
  have hsource : ∀ file ∈ [source], file ∈ r.files fs (r.listing fs).sources := by
    simpa using mem_files_of_mem_sources h
  have hiff : Traversal (successors (r.includesOf fs)) [] [source] order ↔
      order = preorder (successors (r.includesOf fs))
        (unseen (r.files fs (r.listing fs).sources) []) [source] :=
    Traversal.iff_preorder (r.closed_files fs _) hsource
  rwa [unseen_nil] at hiff

/-- There is one search order. -/
lemma isSearchOrder_iff {order : List String} :
    r.IsSearchOrder fs order ↔ order = r.searchOrder fs := by
  have hmap (preorders : List (List String)) : List.Forall₂ (fun source preorder =>
      Traversal (successors (r.includesOf fs)) [] [source] preorder)
        (r.listing fs).sources preorders ↔
      preorders = (r.listing fs).sources.map (r.preorderFrom fs) :=
    forall₂_iff_eq_map fun source hsource => traversal_iff_preorderFrom hsource
  simp only [IsSearchOrder, hmap, exists_eq_left, searchOrder, List.flatMap_def]

/-- The search order is the traversal from all sources. -/
lemma traversal_searchOrder (r : Resolver) (fs : FileSystem) :
    Traversal (successors (r.includesOf fs)) [] (r.listing fs).sources (r.searchOrder fs) :=
  .roots fun _ hsource => (traversal_iff_preorderFrom hsource _).2 rfl

/-- The files that a search meets lie below the root. -/
lemma read_ne_nul_of_mem_searchOrder (h : file ∈ r.searchOrder fs) :
    fs.read [] (r.path file) ≠ .error .nul := by
  obtain ⟨source, hsource, path⟩ := (r.traversal_searchOrder fs).reachable file h
  obtain ⟨root, names, hlies⟩ := exists_liesAt_of_reaches hsource
    (Relation.ReflTransGen.mono (fun _ _ => includes_of_edge) _ _ path)
  exact hlies.read_ne_nul

/-- The first failure in the search order. -/
def firstFailure? (r : Resolver) (fs : FileSystem) : Option Failure :=
  (r.searchOrder fs).findSome? (failure? (r.includesOf fs))

/-- No file fails if, and only if, all files of the search order are sound. -/
lemma firstFailure?_eq_none_iff :
    r.firstFailure? fs = none ↔ ∀ file ∈ r.searchOrder fs, r.IsSound fs file := by
  simp only [firstFailure?, findSome?_failure?_eq_none_iff, exists_includesOf_iff]

/-- The first failure is that of the first file that fails. -/
lemma firstFailure?_eq_some_iff : r.firstFailure? fs = some failure ↔
    ∃ before file after, r.searchOrder fs = before ++ file :: after ∧
      (∀ earlier ∈ before, r.IsSound fs earlier) ∧ r.FileFails fs file failure := by
  rw [firstFailure?, findSome?_failure?_eq_some_iff]
  simp only [exists_includesOf_iff]
  -- the files of the order lie below the root, so none has a NUL in its path
  have hfails {before after : List String} {file : String}
      (heq : r.searchOrder fs = before ++ file :: after) :
      r.includesOf fs file = .error failure ↔ r.FileFails fs file failure :=
    includesOf_eq_error_iff (read_ne_nul_of_mem_searchOrder (by simp [heq]))
  constructor
  · rintro ⟨before, file, after, heq, hbefore, hscan⟩
    exact ⟨before, file, after, heq, hbefore, (hfails heq).1 hscan⟩
  · rintro ⟨before, file, after, heq, hbefore, hfile⟩
    exact ⟨before, file, after, heq, hbefore, (hfails heq).2 hfile⟩

/-- A resolution ends with the first failure in the search order, or else with that of the walk. -/
lemma result_eq_error_iff : (r.resolve fs).result = .error failure ↔
    (r.firstFailure? fs).or (r.listing fs).failure = some failure := by
  obtain ⟨m, e, v⟩ := r.exists_visitsSources fs
  rw [v.resolve_eq, firstFailure?, ← (v.follows (r.traversal_searchOrder fs)).1, conclude]
  cases e.or (r.listing fs).failure <;> simp

/-- A resolution succeeds unless it fails. -/
lemma exists_result_iff : (∃ g, (r.resolve fs).result = .ok g) ↔
    ∀ failure, (r.resolve fs).result ≠ .error failure := by
  cases (r.resolve fs).result <;> simp

/-- A resolution walks the tree for sources and searches from them through all includes. The files
of the search come in one order. The resolution succeeds if and only if the walk does not fail and
every file in this order is sound. Otherwise it gives no graph but a failure: that of the first
file in this order that fails or, if all of them are sound, that of the walk. The walk from a
directory fails only at a directory, or a link to one, that is nested more deeply than it can go, or
at a path that is too long. -/
theorem resolve_first_failure (r : Resolver) (fs : FileSystem) :
    (∀ order, r.IsSearchOrder fs order ↔ order = r.searchOrder fs) ∧
    ((∃ g, (r.resolve fs).result = .ok g) ↔
      (∀ failure, ¬r.WalkFails fs failure) ∧ ∀ file ∈ r.searchOrder fs, r.IsSound fs file) ∧
    (∀ failure, (r.resolve fs).result = .error failure ↔
      (∃ before file after, r.searchOrder fs = before ++ file :: after ∧
        (∀ earlier ∈ before, r.IsSound fs earlier) ∧ r.FileFails fs file failure) ∨
      (∀ file ∈ r.searchOrder fs, r.IsSound fs file) ∧ r.WalkFails fs failure) ∧
    (fs.find? r.root = some .directory → ∀ failure, r.WalkFails fs failure → ∃ names,
      (names = [] ∨ names ∈ fs.walk (r.leadsToFolder fs) r.root) ∧
      r.Blocks fs r.root names failure) := by
  refine ⟨fun _ => isSearchOrder_iff, ?_, fun failure => ?_,
    fun hroot failure h => h.exists_names hroot⟩
  · simp only [exists_result_iff, ne_eq, result_eq_error_iff, walkFails_iff]
    rw [← Option.eq_none_iff_forall_ne_some, ← Option.eq_none_iff_forall_ne_some,
      Option.or_eq_none_iff, firstFailure?_eq_none_iff, and_comm]
  · rw [result_eq_error_iff, Option.or_eq_some_iff, firstFailure?_eq_some_iff,
      firstFailure?_eq_none_iff, walkFails_iff]

/-- A source that includes a header and, below that, a file whose name holds a NUL, in a directory
that is not there. The header fails too. -/
def brokenTree : FileSystem where
  entries := [
    (["p"], .directory),
    (["p", "a.c"], .file (Text.Utf8.encode "#include \"h\"\n#include \"gone/\x00\"".toList)),
    (["p", "h"], .file (Text.Utf8.encode "#include \"..\"".toList)) ]
  unique := by decide
  valid := by decide
  rooted := by
    simp only [List.forall_mem_cons]
    refine ⟨⟨[], "p", ?_⟩, ⟨["p"], "a.c", ?_⟩, ⟨["p"], "h", ?_⟩, by simp⟩
    all_goals exact ⟨rfl, by decide, by simp⟩

/-- The resolver for the tree with a broken include. -/
def broken : Resolver := ⟨["p"], "c", .standard, roomy⟩

set_option maxRecDepth 4000 in
/-- The resolution ends with the missing include, before it comes to the NUL and to the header. -/
lemma resolve_broken : (broken.resolve brokenTree).result =
    .error (.resolve (.missing "gone/\x00" "a.c")) := by
  cbv

/-- A long name for directories. -/
def longName : String := String.ofList (List.replicate 64 'a')

/-- The long name is valid. -/
lemma validName_longName : ValidName longName := by
  decide +kernel

/-- The long name is not hidden. -/
lemma isHidden_longName : FileSystem.isHidden longName = false := by
  decide +kernel

/-- Directories within one another, so deep that the path of the last one is too long. -/
def deepTree : FileSystem where
  entries := (List.range 64).map fun depth => (List.replicate (depth + 1) longName, .directory)
  unique := by
    rw [List.map_map]
    refine List.nodup_range.map fun depth depth' heq => ?_
    simpa using congrArg List.length heq
  valid := by
    intro x hx
    obtain ⟨depth, -, rfl⟩ := List.mem_map.1 hx
    trivial
  rooted := by
    intro x hx
    obtain ⟨depth, hdepth, rfl⟩ := List.mem_map.1 hx
    refine ⟨List.replicate depth longName, longName, List.replicate_succ', validName_longName, ?_⟩
    cases depth with
    | zero => exact .inl rfl
    | succ depth =>
      rw [List.mem_range] at hdepth
      exact .inr (List.mem_map.2 ⟨depth, List.mem_range.2 (Nat.lt_of_succ_lt hdepth), rfl⟩)

/-- The resolver for the directories within one another. -/
def deep : Resolver := ⟨[], "c", .standard, roomy⟩

/-- The path of the last directory is too long. -/
lemma isTooLong_deep : FileSystem.isTooLong ⟨.root, List.replicate 64 longName⟩ = true := by
  decide +kernel

/-- The deep tree has directories only. -/
lemma mem_deepTree {loc : Location} {e : Entry} (h : deepTree.find? loc = some e) :
    e = .directory := by
  rcases FileSystem.find?_eq_some_iff.1 h with ⟨-, rfl⟩ | hmem
  · rfl
  · obtain ⟨depth, -, heq⟩ := List.mem_map.1 hmem
    cases heq
    rfl

/-- The deep tree has all directories up to a depth. -/
lemma find?_deepTree {depth : Nat} (h : depth ≤ 64) :
    deepTree.find? (List.replicate depth longName) = some .directory := by
  cases depth with
  | zero => rfl
  | succ depth =>
    refine FileSystem.find?_eq_some_iff.2 (.inr (List.mem_map.2 ⟨depth, ?_, rfl⟩))
    exact List.mem_range.2 h

/-- There are no sources in the deep tree. -/
lemma sources_deep : (deep.listing deepTree).sources = [] := by
  have hfile : ∀ loc, deepTree.isFile loc = false := by
    intro loc
    unfold FileSystem.isFile
    split
    · next content hfind => cases mem_deepTree hfind
    · rfl
  unfold listing
  split
  · rfl
  · simp [hfile]

/-- The walk meets a path that is too long. -/
lemma listing_deep_fails : (deep.listing deepTree).failure ≠ none := by
  have hmet : List.replicate 64 longName ∈ deepTree.walk (deep.leadsToFolder deepTree) [] := by
    refine FileSystem.mem_walk_iff.2 ⟨by simp, fun name hname => ?_, _, find?_deepTree le_rfl⟩
    rw [List.eq_of_mem_replicate hname]
    exact isHidden_longName
  have hblocks : deep.Blocks deepTree [] (List.replicate 64 longName)
      (.access ⟨.nameTooLong, Path.text ⟨.root, List.replicate 64 longName⟩⟩) :=
    .tooLong (fun hdeep => by simp [deep, roomy] at hdeep) isTooLong_deep
  unfold listing
  cases hroot : deepTree.openDirectory [] deep.rootPath with
  | error fault => simp
  | ok root =>
    cases eq_root_of_stands hroot deepTree.stands_root
    intro hnone
    have hpast := List.findSome?_eq_none_iff.1 hnone _ hmet
    exact refusal?_eq_none_iff.1 hpast _ hblocks

/-- What a resolution does not keep to. In a tree without files nothing can fail in the search, and
the root is a directory; still there is no graph if the walk meets a path that is too long. And an
include of a name with a NUL is just one that leads nowhere, if what stands before that name in the
path does not lead anywhere. -/
theorem resolve_fails_otherwise :
    (deepTree.find? deep.root = some .directory ∧ deep.IsSearchOrder deepTree [] ∧
      ¬((∃ g, (deep.resolve deepTree).result = .ok g) ↔
        ∀ file ∈ ([] : List String), deep.IsSound deepTree file)) ∧
    (broken.resolve brokenTree).result = .error (.resolve (.missing "gone/\x00" "a.c")) := by
  refine ⟨⟨rfl, ⟨[], ?_, rfl⟩, fun hiff => ?_⟩, resolve_broken⟩
  · rw [sources_deep]
    exact .nil
  · obtain ⟨g, h⟩ := hiff.2 (by simp)
    obtain ⟨-, -, -, hwalk⟩ := exists_visits_of_resolve h
    exact listing_deep_fails hwalk

end MakeDeps.Resolver
