import MakeDeps.Proofs.FileSystem.Shape
import MakeDeps.Proofs.FileSystem.WalkOrder
import MakeDeps.Proofs.Path.Extension
import MakeDeps.Proofs.Resolver.FirstFailure

/-!
# The sources of a project

The sources of a project are the regular files with its extension that no hidden name leads to. They
are listed once, files before directories and in increasing order in each directory, up to the first
directory that is nested too deeply and the first path that is too long for the system:
`listing_sources`. What lies behind such a path is not listed: `listing_misses`.
-/

namespace MakeDeps

namespace Resolver
open Search

/-- The names lead from the directory to a source: a regular file with the extension of the project,
on the way to which there are only directories, and nothing that is hidden. -/
structure IsSource (r : Resolver) (fs : FileSystem) (root : Location) (names : List String) :
    Prop where
  visible : ∀ name ∈ names, FileSystem.isHidden name = false
  folders : ∀ above below, names = above ++ below → below ≠ [] →
    fs.find? (root ++ above) = some .directory
  file : ∃ content, fs.find? (root ++ names) = some (.file content)
  extension : Path.hasExtension (names.getLastD "") r.extension = true

/-- Where the names of two files part, the first ones end and the second ones go on, or the name of
the first file or directory is smaller than that of the second one. -/
def ComesFirst (names other : List String) : Prop :=
  ∃ common name rest next rest', names = common ++ name :: rest ∧ other = common ++ next :: rest' ∧
    name ≠ next ∧ (rest = [] ∧ rest' ≠ [] ∨ (rest = [] ↔ rest' = []) ∧ name < next)

variable {r : Resolver} {fs : FileSystem} {root : Location} {names other : List String}
  {name next file extension : String}

/-- The extension of a file is that of its last name. -/
lemma hasExtension_fileName (hne : names ≠ []) : Path.hasExtension (fileName names) extension =
    Path.hasExtension (names.getLastD "") extension := by
  induction names with
  | nil => exact absurd rfl hne
  | cons name names ih =>
    cases names with
    | nil => simp [fileName, Path.text, Path.here, Anchor.text]
    | cons next names =>
      have htoList : (fileName (name :: next :: names)).toList =
          name.toList ++ '/' :: (fileName (next :: names)).toList := by
        simp [fileName, Path.text, Path.here, Anchor.text, String.toList_intercalate]
      have hrest := ih (by simp)
      rw [List.getLastD_cons] at hrest
      rw [List.getLastD_cons, List.getLastD_cons, ← hrest, Bool.eq_iff_iff, Path.hasExtension_iff,
        htoList, Path.map_splitExtension_append, Path.hasExtension_iff]

/-- Of two lists of names with a name in front, the first difference tells which comes first. -/
lemma comesFirst_cons : ComesFirst (name :: names) (next :: other) ↔
    if name = next then ComesFirst names other
    else names = [] ∧ other ≠ [] ∨ (names = [] ↔ other = []) ∧ name < next := by
  constructor
  · rintro ⟨common, a, rest, b, rest', hnames, hother, hne, horder⟩
    cases common with
    | nil =>
      cases hnames
      cases hother
      rwa [if_neg hne]
    | cons c common =>
      cases hnames
      cases hother
      rw [if_pos rfl]
      exact ⟨common, a, rest, b, rest', rfl, rfl, hne, horder⟩
  · intro h
    split at h
    · next heq =>
      subst heq
      obtain ⟨common, a, rest, b, rest', rfl, rfl, horder⟩ := h
      exact ⟨name :: common, a, rest, b, rest', rfl, rfl, horder⟩
    · next hne => exact ⟨[], name, names, next, other, rfl, rfl, hne, h⟩

/-- On the way to a file there are directories, and no other. -/
lemma isFolder_iff_of_file {linked : List String → Bool} {content : List UInt8}
    (h : fs.find? (root ++ name :: names) = some (.file content)) :
    fs.isFolder linked root [name] = true ↔ names ≠ [] := by
  rw [← List.singleton_append, ← List.append_assoc] at h
  rw [FileSystem.isFolder_iff_or]
  constructor
  · rintro hfolder rfl
    rw [List.append_nil] at h
    simp [h] at hfolder
  · exact fun hne => .inl (FileSystem.find?_above h hne)

/-- For two files, the order of a walk can be told from their names. -/
lemma meetsFirst_iff_comesFirst {linked : List String → Bool} {content content' : List UInt8}
    (h : fs.find? (root ++ names) = some (.file content))
    (h' : fs.find? (root ++ other) = some (.file content')) :
    fs.MeetsFirst linked root names other ↔ ComesFirst names other := by
  induction names generalizing linked root other with
  | nil =>
    -- nothing lies below a file
    have hnil : other = [] := by
      by_contra hne
      rw [List.append_nil, FileSystem.find?_above h' hne] at h
      cases h
    simp [hnil, FileSystem.MeetsFirst, ComesFirst]
  | cons name names ih =>
    cases other with
    | nil => simp [FileSystem.MeetsFirst, ComesFirst]
    | cons next other =>
      rw [FileSystem.MeetsFirst, comesFirst_cons]
      by_cases heq : name = next
      · subst heq
        rw [if_pos rfl, if_pos rfl]
        exact ih (by simpa using h) (by simpa using h')
      · simp only [if_neg heq, isFolder_iff_of_file h, isFolder_iff_of_file h']
        by_cases hnames : names = [] <;> by_cases hother : other = [] <;> simp [hnames, hother]

/-- The listing of sources where the root leads to a directory. -/
lemma listing_of_openDirectory (hroot : fs.openDirectory [] r.rootPath = .ok root) :
    r.listing fs =
      { sources := ((((fs.walk (r.leadsToFolder fs) root).takeWhile fun names =>
          (r.refusal? fs root names).isNone).filter fun names =>
            fs.isFile (root ++ names)).map fileName).filter (Path.hasExtension · r.extension)
        failure := (fs.walk (r.leadsToFolder fs) root).findSome? (r.refusal? fs root) } := by
  rw [listing, hroot]

/-- A source is visible. -/
lemma IsSource.isVisible (h : r.IsSource fs root names)
    (hroot : fs.find? root = some .directory) : fs.IsVisible root names := by
  obtain ⟨content, hfind⟩ := h.file
  refine ⟨?_, h.visible, _, hfind⟩
  rintro rfl
  rw [List.append_nil, hroot] at hfind
  cases hfind

/-- A source is visible, a file, and has the extension. -/
lemma isSource_iff (hroot : fs.find? root = some .directory) : r.IsSource fs root names ↔
    fs.IsVisible root names ∧ fs.isFile (root ++ names) = true ∧
      Path.hasExtension (fileName names) r.extension = true := by
  constructor
  · intro h
    have hvisible := h.isVisible hroot
    refine ⟨hvisible, FileSystem.isFile_iff.2 h.file, ?_⟩
    rw [hasExtension_fileName hvisible.1]
    exact h.extension
  · rintro ⟨⟨hne, hvisible, -⟩, hfile, hextension⟩
    obtain ⟨content, hfind⟩ := FileSystem.isFile_iff.1 hfile
    refine ⟨hvisible, fun above below hnames hbelow => ?_, ⟨content, hfind⟩, ?_⟩
    · rw [hnames, ← List.append_assoc] at hfind
      exact FileSystem.find?_above hfind hbelow
    · rwa [hasExtension_fileName hne] at hextension

/-- What the walk for sources meets comes in one order. -/
lemma asymm_meetsFirst (fs : FileSystem) (linked : List String → Bool) (root : Location) :
    ∀ names other, fs.MeetsFirst linked root names other → ¬fs.MeetsFirst linked root other names :=
  fun _ _ h => h.asymm

/-- The listed files are the sources that a walk meets before everything it cannot get past. -/
lemma mem_sources_iff (hroot : fs.openDirectory [] r.rootPath = .ok root) :
    file ∈ (r.listing fs).sources ↔ ∃ names, r.IsSource fs root names ∧ file = fileName names ∧
      ∀ other failure, fs.IsVisible root other → r.Blocks fs root other failure →
        fs.MeetsFirst (r.leadsToFolder fs) root names other := by
  have hdir := (FileSystem.openDirectory_eq_ok_iff.1 hroot).2
  have hpast (other : List String) : (r.refusal? fs root other).isNone = false ↔
      ∃ failure, r.Blocks fs root other failure := by
    simp [← refusal?_eq_some_iff, ← Option.isSome_iff_exists]
  rw [listing_of_openDirectory hroot]
  simp only [List.mem_filter, List.mem_map, isSource_iff hdir, FileSystem.IsVisible,
    ← @FileSystem.mem_walk_iff fs (r.leadsToFolder fs), hpast,
    mem_takeWhile_iff_of_pairwise (fs.pairwise_walk _ root) (asymm_meetsFirst fs _ root)]
  constructor
  · rintro ⟨⟨names, ⟨⟨hwalk, hfirst⟩, hfile⟩, rfl⟩, hextension⟩
    exact ⟨names, ⟨hwalk, hfile, hextension⟩, rfl, fun other failure hother hblocks =>
      hfirst other hother ⟨failure, hblocks⟩⟩
  · rintro ⟨names, ⟨hwalk, hfile, hextension⟩, rfl, hfirst⟩
    refine ⟨⟨names, ⟨⟨hwalk, fun other hother => ?_⟩, hfile⟩, rfl⟩, hextension⟩
    rintro ⟨failure, hblocks⟩
    exact hfirst other failure hother hblocks

/-- The names of a file can be read off the path that it is listed with. -/
lemma names_fileName {content : List UInt8} (hroot : fs.openDirectory [] r.rootPath = .ok root)
    (hfind : fs.find? (root ++ names) = some (.file content)) :
    Path.names (fileName names) = names := by
  have hlies : r.LiesAt fs (fileName names) root names := ⟨hroot, ⟨_, hfind, nofun⟩, rfl⟩
  refine hlies.names_eq ?_
  rintro rfl
  rw [List.append_nil, (FileSystem.openDirectory_eq_ok_iff.1 hroot).2] at hfind
  cases hfind

/-- A listed source is a file at its names. -/
lemma exists_file_of_mem_sources (hroot : fs.openDirectory [] r.rootPath = .ok root)
    (h : file ∈ (r.listing fs).sources) :
    ∃ content, fs.find? (root ++ Path.names file) = some (.file content) := by
  obtain ⟨names, hsource, rfl, -⟩ := (mem_sources_iff hroot).1 h
  obtain ⟨content, hfind⟩ := hsource.file
  rw [names_fileName hroot hfind]
  exact ⟨content, hfind⟩

/-- Sources are listed in the order in which a walk meets them. -/
lemma pairwise_sources (hroot : fs.openDirectory [] r.rootPath = .ok root) :
    (r.listing fs).sources.Pairwise fun file other =>
      fs.MeetsFirst (r.leadsToFolder fs) root (Path.names file) (Path.names other) := by
  rw [listing_of_openDirectory hroot]
  refine List.Pairwise.filter _ (List.pairwise_map.2 ?_)
  have hwalk := ((fs.pairwise_walk (r.leadsToFolder fs) root).sublist
    (List.takeWhile_sublist fun names => (r.refusal? fs root names).isNone)).filter
      fun names => fs.isFile (root ++ names)
  refine hwalk.imp_of_mem fun hnames hother horder => ?_
  obtain ⟨content, hfind⟩ := FileSystem.isFile_iff.1 (List.mem_filter.1 hnames).2
  obtain ⟨content', hfind'⟩ := FileSystem.isFile_iff.1 (List.mem_filter.1 hother).2
  rwa [names_fileName hroot hfind, names_fileName hroot hfind']

/-- The order of two listed files can be told from their names. -/
lemma precedes_sources_iff (hroot : fs.openDirectory [] r.rootPath = .ok root)
    {other : String} (hfile : file ∈ (r.listing fs).sources)
    (hother : other ∈ (r.listing fs).sources) : Precedes (r.listing fs).sources file other ↔
      ComesFirst (Path.names file) (Path.names other) := by
  obtain ⟨content, hfind⟩ := exists_file_of_mem_sources hroot hfile
  obtain ⟨content', hfind'⟩ := exists_file_of_mem_sources hroot hother
  rw [precedes_iff_of_pairwise (pairwise_sources hroot) (fun _ _ h => h.asymm) hfile hother,
    meetsFirst_iff_comesFirst hfind hfind']

/-- The walk fails at the first thing that it cannot get past. -/
lemma listing_failure_iff {failure : Failure} (hroot : fs.openDirectory [] r.rootPath = .ok root) :
    (r.listing fs).failure = some failure ↔ ∃ names, fs.IsVisible root names ∧
      r.Blocks fs root names failure ∧ ∀ other failure', fs.IsVisible root other →
        r.Blocks fs root other failure' →
        other = names ∨ fs.MeetsFirst (r.leadsToFolder fs) root names other := by
  have hantisymm : ∀ names other, fs.MeetsFirst (r.leadsToFolder fs) root names other →
      fs.MeetsFirst (r.leadsToFolder fs) root other names → names = other :=
    fun _ _ h h' => absurd h' h.asymm
  rw [listing_of_openDirectory hroot]
  simp only [FileSystem.IsVisible, ← @FileSystem.mem_walk_iff fs (r.leadsToFolder fs),
    ← refusal?_eq_some_iff, findSome?_eq_some_iff_of_pairwise (fs.pairwise_walk _ root) hantisymm]
  constructor
  · rintro ⟨names, hwalk, hblocks, hfirst⟩
    exact ⟨names, hwalk, hblocks, fun other failure' hother => hfirst other hother failure'⟩
  · rintro ⟨names, hwalk, hblocks, hfirst⟩
    exact ⟨names, hwalk, hblocks, fun other hother failure' => hfirst other failure' hother⟩

/-- If the root cannot be opened, nothing is listed. Otherwise it leads to a directory, which is the
root itself if there is a directory, and of the sources below it those are listed that come before
everything that the walk cannot get past: a directory, or a link to one, that is nested too deeply,
or a path that is too long for the system. Each of them is listed once, by the names that lead to
it, in the order that these names have. The walk fails if there is something that it cannot get
past, at the first such thing; if there is nothing, all sources are listed. -/
theorem listing_sources (r : Resolver) (fs : FileSystem) :
    (∀ fault, fs.openDirectory [] r.rootPath = .error fault →
      r.listing fs = ⟨[], some (.ofFault r.rootPath.text fault)⟩) ∧
    ∀ root, fs.openDirectory [] r.rootPath = .ok root →
      (fs.find? r.root = some .directory → root = r.root) ∧
      (∀ file, file ∈ (r.listing fs).sources ↔ ∃ names, r.IsSource fs root names ∧
        file = fileName names ∧ ∀ other failure, fs.IsVisible root other →
          r.Blocks fs root other failure →
          fs.MeetsFirst (r.leadsToFolder fs) root names other) ∧
      (r.listing fs).sources.Nodup ∧
      (∀ file ∈ (r.listing fs).sources, ∀ other ∈ (r.listing fs).sources,
        Precedes (r.listing fs).sources file other ↔
          ComesFirst (Path.names file) (Path.names other)) ∧
      ∀ failure, (r.listing fs).failure = some failure ↔ ∃ names, fs.IsVisible root names ∧
        r.Blocks fs root names failure ∧ ∀ other failure', fs.IsVisible root other →
          r.Blocks fs root other failure' →
          other = names ∨ fs.MeetsFirst (r.leadsToFolder fs) root names other := by
  refine ⟨fun fault hfault => by rw [listing, hfault], fun root hroot =>
    ⟨fun hdir => eq_root_of_stands hroot ⟨_, hdir, nofun⟩, fun file => mem_sources_iff hroot, ?_,
      fun file hfile other hother => precedes_sources_iff hroot hfile hother,
      fun failure => listing_failure_iff hroot⟩⟩
  refine (pairwise_sources hroot).imp fun horder heq => ?_
  subst heq
  exact horder.asymm horder

/-- Directories as deep as in the other tree, and a source in another directory. -/
def missedTree : FileSystem :=
  (deepTree.place [] "b" .directory).place ["b"] "m.c" (.file [])

/-- The long name comes before the other directory. -/
lemma longName_lt : longName < "b" := by
  decide +kernel

/-- What stands in the tree: a source in another directory, and what the deep tree has. -/
lemma find?_missedTree (loc : Location) : missedTree.find? loc =
    if loc = ["b", "m.c"] then some (.file [])
    else if loc = ["b"] then some .directory
    else if ["b"] <+: loc then none
    else deepTree.find? loc := by
  have hvalid : Entry.directory.Valid := trivial
  have hfolder (loc : Location) : (deepTree.place [] "b" .directory).find? loc =
      if loc = ["b"] then some .directory else if ["b"] <+: loc then none
      else deepTree.find? loc :=
    FileSystem.find?_place ⟨FileSystem.find?_nil _, by decide, hvalid⟩ loc
  have hdir : (deepTree.place [] "b" .directory).find? ["b"] = some .directory := by
    rw [hfolder, if_pos rfl]
  have hnone : (deepTree.place [] "b" .directory).find? (["b"] ++ ["m.c"]) ≠ some .directory := by
    rw [hfolder, if_neg (by decide), if_pos (List.prefix_append _ _)]
    exact nofun
  rw [missedTree, FileSystem.find?_place_file hdir (by decide) hnone, hfolder]
  rfl

/-- The deepest directory is in the tree. -/
lemma find?_missedTree_deep :
    missedTree.find? (List.replicate 64 longName) = some .directory := by
  have hne : "b" ≠ longName := (String.ne_of_lt longName_lt).symm
  have hout : ∀ loc : Location, "b" :: loc ≠ List.replicate 64 longName := fun loc heq =>
    hne (List.eq_of_mem_replicate (heq ▸ List.mem_cons_self))
  rw [find?_missedTree, if_neg (hout _).symm, if_neg (hout _).symm, if_neg, find?_deepTree le_rfl]
  rintro ⟨loc, heq⟩
  exact hout loc heq

/-- The root directory can be opened. -/
lemma openDirectory_root (fs : FileSystem) : fs.openDirectory [] ⟨.root, []⟩ = .ok [] := by
  refine FileSystem.openDirectory_eq_ok_iff.2 ⟨?_, rfl⟩
  rw [FileSystem.locate_stands fs.stands_root, if_neg (by decide)]

/-- The resolver is that of the root directory. -/
lemma create_missedTree : create missedTree [] ⟨.root, []⟩ "c" .standard roomy = .ok deep := by
  rw [create_of_openDirectory (openDirectory_root missedTree)]
  simp [FileSystem.settled, FileSystem.settleFrom, Anchor.startAtPath, Path.locationFrom,
    Anchor.startAt, deep]

/-- What a listing leaves out: a source behind a path that is too long. -/
theorem listing_misses :
    create missedTree [] ⟨.root, []⟩ "c" .standard roomy = .ok deep ∧
    missedTree.openDirectory [] deep.rootPath = .ok [] ∧
    deep.IsSource missedTree [] ["b", "m.c"] ∧
    fileName ["b", "m.c"] ∉ (deep.listing missedTree).sources := by
  have hopen : missedTree.openDirectory [] deep.rootPath = .ok [] := openDirectory_root missedTree
  have hfile : missedTree.find? ([] ++ ["b", "m.c"]) = some (.file []) := by
    rw [List.nil_append, find?_missedTree, if_pos rfl]
  have hsource : deep.IsSource missedTree [] ["b", "m.c"] :=
    (isSource_iff (FileSystem.find?_nil _)).2 ⟨⟨by simp, by decide, _, hfile⟩,
      FileSystem.isFile_iff.2 ⟨_, hfile⟩, by decide⟩
  refine ⟨create_missedTree, hopen, hsource, fun hmem => ?_⟩
  obtain ⟨names, hother, heq, hfirst⟩ := (mem_sources_iff hopen).1 hmem
  obtain ⟨content, hfind⟩ := hother.file
  have hnames : names = ["b", "m.c"] := by
    rw [← names_fileName hopen hfind, ← heq, names_fileName hopen hfile]
  subst hnames
  have hfolder : missedTree.find? ["b"] = some .directory := by
    rw [find?_missedTree, if_neg (by decide), if_pos rfl]
  have htop : missedTree.find? [longName] = some .directory := by
    have hdeep := find?_missedTree_deep
    rw [List.replicate_succ, ← List.singleton_append] at hdeep
    exact FileSystem.find?_above hdeep (by simp)
  -- the walk meets what lies too deep before the other directory
  have hvisible : missedTree.IsVisible [] (List.replicate 64 longName) := by
    refine ⟨by simp, fun name hname => ?_, _, find?_missedTree_deep⟩
    rw [List.eq_of_mem_replicate hname]
    exact isHidden_longName
  have hlong : deep.Blocks missedTree [] (List.replicate 64 longName)
      (.access ⟨.nameTooLong, Path.text ⟨.root, List.replicate 64 longName⟩⟩) :=
    .tooLong (fun hdeep => by simp [deep, roomy] at hdeep) isTooLong_deep
  have hmeets : missedTree.MeetsFirst (deep.leadsToFolder missedTree) []
      (List.replicate 64 longName) ["b", "m.c"] := by
    rw [List.replicate_succ, FileSystem.MeetsFirst, if_neg (String.ne_of_lt longName_lt),
      if_pos (FileSystem.isFolder_iff_or.2 (.inl htop))]
    exact ⟨FileSystem.isFolder_iff_or.2 (.inl hfolder), longName_lt⟩
  exact (hfirst _ _ hvisible hlong).asymm hmeets

end Resolver

end MakeDeps
