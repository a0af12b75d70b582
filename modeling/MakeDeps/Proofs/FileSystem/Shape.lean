import MakeDeps.FileSystem.Settled
import MakeDeps.Proofs.FileSystem.Clean
import MakeDeps.Proofs.FileSystem.Walk

/-!
# The shape of a tree

The shape of a tree is what it is without the contents of its files: `SameShape`. Where a path
leads and what a walk meets depends on nothing else. If files are added to a tree (`AddsFiles`),
this stays so for every path that had led somewhere (`AddsFiles.locate`, `AddsFiles.canonical`), and
a walk meets the added files besides what it met before (`AddsFiles.walk_eq`).
-/

namespace MakeDeps.FileSystem

variable {fs fs' : FileSystem} {cwd here loc folder : Location} {name : String}
  {names : List String} {p : Path} {e : Entry} {linked : List String → Bool}

/-- The trees have the same directories and the same links, and they have files in the same places.
What the files hold may differ. -/
structure SameShape (fs fs' : FileSystem) : Prop where
  directory : ∀ loc, fs.find? loc = some .directory ↔ fs'.find? loc = some .directory
  link : ∀ loc target, fs.find? loc = some (.link target) ↔ fs'.find? loc = some (.link target)
  file : ∀ loc, fs.isFile loc = true ↔ fs'.isFile loc = true

/-- The trees have the same directories and the same links, and the second one has a file wherever
the first one has one. What the files hold may differ. -/
structure AddsFiles (fs fs' : FileSystem) : Prop where
  directory : ∀ loc, fs.find? loc = some .directory ↔ fs'.find? loc = some .directory
  link : ∀ loc target, fs.find? loc = some (.link target) ↔ fs'.find? loc = some (.link target)
  file : ∀ loc, fs.isFile loc = true → fs'.isFile loc = true

/-- A place is a file if a file is found there. -/
lemma isFile_iff : fs.isFile loc = true ↔ ∃ content, fs.find? loc = some (.file content) := by
  unfold isFile
  split
  · next content hfind => simp [hfind]
  · next hother => simpa using hother

/-- A directory for a walk is a directory, or one of the links that lead to one. -/
lemma isFolder_iff_or : fs.isFolder linked loc names = true ↔
    fs.find? (loc ++ names) = some .directory ∨
      (∃ target, fs.find? (loc ++ names) = some (.link target)) ∧ linked names = true := by
  unfold isFolder
  cases fs.find? (loc ++ names) with
  | none => simp
  | some e => cases e <;> simp [isFolderEntry]

/-- What holds of the shape of one tree holds of that of the other. -/
lemma SameShape.symm (h : SameShape fs fs') : SameShape fs' fs :=
  ⟨fun loc => (h.directory loc).symm, fun loc target => (h.link loc target).symm,
    fun loc => (h.file loc).symm⟩

/-- Trees of the same shape are trees with files added. -/
lemma SameShape.addsFiles (h : SameShape fs fs') : AddsFiles fs fs' :=
  ⟨h.directory, h.link, fun loc => (h.file loc).1⟩

/-- The links are where a link is found. -/
lemma mem_links_iff : loc ∈ fs.links ↔ ∃ target, fs.find? loc = some (.link target) := by
  simp only [links, List.mem_filterMap, find?_eq_some_iff]
  constructor
  · rintro ⟨⟨other, e⟩, hmem, heq⟩
    cases e with
    | link target =>
      cases heq
      exact ⟨target, .inr hmem⟩
    | directory => cases heq
    | file _ => cases heq
  · rintro ⟨target, ⟨-, hlink⟩ | hmem⟩
    · cases hlink
    · exact ⟨_, hmem, rfl⟩

/-- No link is listed twice. -/
lemma nodup_links (fs : FileSystem) : fs.links.Nodup := by
  refine nodup_filterMap_fst ?_ fs.unique
  rintro ⟨other, e⟩ loc heq
  cases e with
  | link target => exact Option.some.inj heq
  | directory => cases heq
  | file _ => cases heq

/-- The target of a link is read if a link is seen and its path is not too long. -/
lemma linkTarget?_eq_some_iff {folder : Path} {target : String} :
    fs.linkTarget? cwd folder name = some target ↔ isTooLong (folder.child name) = false ∧
      fs.lookAt (folder.locationFrom cwd) name = .ok (.link target) := by
  unfold linkTarget?
  split
  · simp_all
  · split <;> simp_all

namespace AddsFiles

/-- What is no link stays something that is no link. -/
lemma entry (h : AddsFiles fs fs') (hfind : fs.find? loc = some e)
    (hlink : ∀ target, e ≠ .link target) :
    ∃ e', fs'.find? loc = some e' ∧ ∀ target, e' ≠ .link target := by
  cases e with
  | directory => exact ⟨_, (h.directory loc).1 hfind, nofun⟩
  | link target => exact absurd rfl (hlink target)
  | file content =>
    obtain ⟨content', hfind'⟩ := isFile_iff.1 (h.file loc (isFile_iff.2 ⟨content, hfind⟩))
    exact ⟨_, hfind', nofun⟩

/-- Where something was, something is. -/
lemma exists_entry (h : AddsFiles fs fs') (hfind : fs.find? loc = some e) :
    ∃ e', fs'.find? loc = some e' := by
  cases e with
  | directory => exact ⟨_, (h.directory loc).1 hfind⟩
  | link target => exact ⟨_, (h.link loc target).1 hfind⟩
  | file content =>
    obtain ⟨content', hfind'⟩ := isFile_iff.1 (h.file loc (isFile_iff.2 ⟨content, hfind⟩))
    exact ⟨_, hfind'⟩

/-- There are no other directories than before. -/
lemma not_directory (h : AddsFiles fs fs') :
    fs.find? loc ≠ some .directory ↔ fs'.find? loc ≠ some .directory :=
  not_congr (h.directory loc)

/-- What cannot be seen for another cause than that it is missing still cannot. -/
lemma lookAt_error {cause : Cause} (h : AddsFiles fs fs')
    (hlook : fs.lookAt folder name = .error cause) (hcause : cause ≠ .notFound) :
    fs'.lookAt folder name = .error cause := by
  unfold FileSystem.lookAt at hlook ⊢
  split at hlook
  · next hdir => rw [if_pos (h.not_directory.1 hdir), hlook]
  · next hdir =>
    rw [if_neg (not_not.2 ((h.directory _).1 (not_not.1 hdir)))]
    split at hlook
    · next hlong => rw [if_pos hlong, hlook]
    · split at hlook
      · cases hlook
        exact absurd rfl hcause
      · cases hlook

/-- The same links are seen. -/
lemma lookAt_link {target : String} (h : AddsFiles fs fs') :
    fs'.lookAt folder name = .ok (.link target) ↔ fs.lookAt folder name = .ok (.link target) := by
  rw [lookAt_eq_ok_iff, lookAt_eq_ok_iff, h.directory, h.link]

/-- What is seen and no link is still seen, and no link. -/
lemma lookAt_entry (h : AddsFiles fs fs') (hlook : fs.lookAt folder name = .ok e)
    (hlink : ∀ target, e ≠ .link target) :
    ∃ e', fs'.lookAt folder name = .ok e' ∧ ∀ target, e' ≠ .link target := by
  obtain ⟨hdir, hshort, hfind⟩ := lookAt_eq_ok_iff.1 hlook
  obtain ⟨e', hfind', hlink'⟩ := h.entry hfind hlink
  exact ⟨e', lookAt_eq_ok_iff.2 ⟨(h.directory _).1 hdir, hshort, hfind'⟩, hlink'⟩

/-- Added files do not change a resolution, unless it fails because something is not there. -/
lemma canonicalFrom (h : AddsFiles fs fs') {nesting : Nat} {fresh fresh' : List Location}
    {known : List (Location × Location)} {detours : List Detour} (hfresh : fresh'.Perm fresh) :
    fs.canonicalFrom nesting fresh known here detours names = .error (.refused .notFound) ∨
      fs'.canonicalFrom nesting fresh' known here detours names =
        fs.canonicalFrom nesting fresh known here detours names := by
  fun_induction FileSystem.canonicalFrom fs nesting fresh known here detours names
    generalizing fresh' with
  | case1 =>
    right
    rw [FileSystem.canonicalFrom]
  | case2 fresh known here detour detours ih =>
    rw [FileSystem.canonicalFrom]
    exact ih hfresh
  | case3 fresh known here detours name rest hskip ih =>
    rw [FileSystem.canonicalFrom, if_pos hskip]
    exact ih hfresh
  | case4 fresh known here detours rest hskip ih =>
    rw [FileSystem.canonicalFrom, if_neg hskip, if_pos rfl]
    exact ih hfresh
  | case5 fresh known here detours name rest hskip hup hnul =>
    right
    rw [FileSystem.canonicalFrom, if_neg hskip, if_neg hup, if_pos hnul]
  | case6 fresh known here detours name rest hskip hup hnul hlong =>
    right
    rw [FileSystem.canonicalFrom, if_neg hskip, if_neg hup, if_neg hnul, if_pos hlong]
  | case7 fresh known here detours name rest hskip hup hnul hlong cause hlook =>
    by_cases hcause : cause = .notFound
    · exact .inl (by rw [hcause])
    · right
      rw [FileSystem.canonicalFrom, if_neg hskip, if_neg hup, if_neg hnul, if_neg hlong,
        h.lookAt_error hlook hcause]
  | case8 fresh known here detours name rest hskip hup hnul hlong target hlook there hknown ih =>
    rw [FileSystem.canonicalFrom, if_neg hskip, if_neg hup, if_neg hnul, if_neg hlong,
      h.lookAt_link.2 hlook]
    simp only [hknown]
    exact ih hfresh
  | case9 fresh known here detours name rest hskip hup hnul hlong target hlook hknown hlink ih =>
    have hlink' : here ++ [name] ∈ fresh' ∧ detours.length < nesting :=
      ⟨hfresh.mem_iff.2 hlink.1, hlink.2⟩
    rw [FileSystem.canonicalFrom, if_neg hskip, if_neg hup, if_neg hnul, if_neg hlong,
      h.lookAt_link.2 hlook]
    simp only [hknown, if_pos hlink']
    exact ih (hfresh.erase _)
  | case10 fresh known here detours name rest hskip hup hnul hlong target hlook hknown hlink =>
    have hlink' : ¬(here ++ [name] ∈ fresh' ∧ detours.length < nesting) :=
      fun hboth => hlink ⟨hfresh.mem_iff.1 hboth.1, hboth.2⟩
    right
    rw [FileSystem.canonicalFrom, if_neg hskip, if_neg hup, if_neg hnul, if_neg hlong,
      h.lookAt_link.2 hlook]
    simp only [hknown, if_neg hlink']
  | case11 fresh known here detours name rest hskip hup hnul hlong e hentry hlook ih =>
    obtain ⟨e', hlook', hentry'⟩ := h.lookAt_entry hlook fun target he => hentry target he
    rw [FileSystem.canonicalFrom, if_neg hskip, if_neg hup, if_neg hnul, if_neg hlong, hlook']
    cases e' with
    | link target => exact absurd rfl (hentry' target)
    | file content => exact ih hfresh
    | directory => exact ih hfresh

/-- Added files do not change where names lead, unless that is nowhere because something is not
there. -/
lemma follow (h : AddsFiles fs fs') (links : Nat) (here : Location) (names : List String) :
    fs.follow false links here names = .error .notFound ∨
      fs'.follow false links here names = fs.follow false links here names := by
  fun_induction FileSystem.follow fs false links here names with
  | case1 =>
    right
    rw [FileSystem.follow]
  | case2 links here name rest hdir =>
    right
    rw [FileSystem.follow, if_pos (h.not_directory.1 hdir)]
  | case3 links here name rest hdir hskip ih =>
    rw [FileSystem.follow, if_neg (mt h.not_directory.2 hdir), if_pos hskip]
    exact ih
  | case4 links here rest hdir hskip ih =>
    rw [FileSystem.follow, if_neg (mt h.not_directory.2 hdir), if_neg hskip, if_pos rfl]
    exact ih
  | case5 _ _ _ _ _ _ _ hlast => exact absurd hlast.1 (by simp)
  | case6 links here name rest hdir hskip hup _ hlong =>
    right
    rw [FileSystem.follow, if_neg (mt h.not_directory.2 hdir), if_neg hskip, if_neg hup,
      if_neg (by simp), if_pos hlong]
  | case7 _ _ _ _ _ _ _ _ _ _ hlast => exact absurd hlast.1 (by simp)
  | case8 => exact .inl rfl
  | case9 here name rest hdir hskip hup _ hshort target hlink =>
    right
    rw [FileSystem.follow, if_neg (mt h.not_directory.2 hdir), if_neg hskip, if_neg hup,
      if_neg (by simp), if_neg hshort]
    simp only [(h.link _ _).1 hlink]
  | case10 here name rest hdir hskip hup _ hshort target hlink links start ih =>
    rw [FileSystem.follow, if_neg (mt h.not_directory.2 hdir), if_neg hskip, if_neg hup,
      if_neg (by simp), if_neg hshort]
    simp only [(h.link _ _).1 hlink]
    exact ih
  | case11 links here name rest hdir hskip hup _ hshort e hentry hfind ih =>
    obtain ⟨e', hfind', hentry'⟩ := h.entry hfind fun target he => hentry target he
    rw [FileSystem.follow, if_neg (mt h.not_directory.2 hdir), if_neg hskip, if_neg hup,
      if_neg (by simp), if_neg hshort]
    cases e' with
    | link target => exact absurd rfl (hentry' target)
    | file content => simpa only [hfind'] using ih
    | directory => simpa only [hfind'] using ih

/-- A path is located as before, unless it was not found. -/
lemma locate (h : AddsFiles fs fs') (cwd : Location) (p : Path) :
    fs.locate cwd false p = .error (.refused .notFound) ∨
      fs'.locate cwd false p = fs.locate cwd false p := by
  unfold FileSystem.locate
  split
  · exact .inr rfl
  · split
    · exact .inr rfl
    · rcases h.follow maxLinks (p.anchor.startAt cwd) p.parts with hnone | hsame
      · exact .inl (by rw [hnone]; rfl)
      · exact .inr (by rw [hsame])

/-- There are the same links. -/
lemma links_perm (h : AddsFiles fs fs') : fs'.links.Perm fs.links := by
  refine (List.perm_ext_iff_of_nodup fs'.nodup_links fs.nodup_links).2 fun loc => ?_
  simp only [mem_links_iff, h.link]

/-- Added files do not change where a path leads to in the end, unless that is nowhere because
something is not there. -/
lemma canonical (h : AddsFiles fs fs') (nesting : Nat) :
    fs.canonical nesting cwd p = .error (.refused .notFound) ∨
      fs'.canonical nesting cwd p = fs.canonical nesting cwd p :=
  h.canonicalFrom h.links_perm

/-- The same targets of links are read. -/
lemma linkTarget (h : AddsFiles fs fs') : fs'.linkTarget? = fs.linkTarget? := by
  funext cwd folder name
  ext target
  simp only [linkTarget?_eq_some_iff, h.lookAt_link]

/-- Links are settled without a look at files. -/
lemma settled (h : AddsFiles fs fs') : fs'.settled cwd p = fs.settled cwd p := by
  have hsettle (links : Nat) (here : Path) (names : List String) :
      fs'.settleFrom cwd links here names = fs.settleFrom cwd links here names := by
    fun_induction FileSystem.settleFrom fs cwd links here names <;>
      rw [FileSystem.settleFrom] <;> simp_all [h.linkTarget]
  rw [FileSystem.settled, hsettle, FileSystem.settled]

/-- What is a directory is still one. -/
lemma isDirectory (h : AddsFiles fs fs') (hdir : fs.isDirectory cwd p = .ok true) :
    fs'.isDirectory cwd p = .ok true := by
  obtain ⟨loc, hlocate, hfind⟩ := isDirectory_eq_true_iff.1 hdir
  rcases h.locate cwd p with hnone | hsame
  · cases hlocate.symm.trans hnone
  · exact isDirectory_eq_true_iff.2 ⟨loc, hsame.trans hlocate, (h.directory loc).1 hfind⟩

/-- No directory is reached through added files. -/
lemma follow_folder (h : AddsFiles fs fs') {links : Nat}
    (hfollow : fs'.follow false links here names = .ok (.taken loc))
    (hdir : fs'.find? loc = some .directory) :
    fs.follow false links here names = .ok (.taken loc) := by
  fun_induction FileSystem.follow fs' false links here names with
  | case1 =>
    rw [FileSystem.follow, hfollow]
  | case2 => cases hfollow
  | case3 links here name rest hhere hskip ih =>
    rw [FileSystem.follow, if_neg (mt h.not_directory.1 hhere), if_pos hskip]
    exact ih hfollow
  | case4 links here rest hhere hskip ih =>
    rw [FileSystem.follow, if_neg (mt h.not_directory.1 hhere), if_neg hskip, if_pos rfl]
    exact ih hfollow
  | case5 => cases hfollow
  | case6 => cases hfollow
  | case7 _ _ _ _ _ _ _ _ _ _ hlast => exact absurd hlast.1 (by simp)
  | case8 => cases hfollow
  | case9 => cases hfollow
  | case10 here name rest hhere hskip hup _ hshort target hlink links start ih =>
    rw [FileSystem.follow, if_neg (mt h.not_directory.1 hhere), if_neg hskip, if_neg hup,
      if_neg (by simp), if_neg hshort]
    simp only [(h.link _ _).2 hlink]
    exact ih hfollow
  | case11 links here name rest hhere hskip hup _ hshort e hentry hfind ih =>
    -- a file is not a directory, and nothing lies below it
    have hfolder : fs'.find? (here ++ [name]) = some .directory := by
      cases rest with
      | nil =>
        rw [FileSystem.follow] at hfollow
        cases hfollow
        exact hdir
      | cons next rest =>
        rw [FileSystem.follow] at hfollow
        split at hfollow
        · cases hfollow
        · next hstep => exact not_not.1 hstep
    rw [FileSystem.follow, if_neg (mt h.not_directory.1 hhere), if_neg hskip, if_neg hup,
      if_neg (by simp), if_neg hshort]
    simp only [(h.directory _).2 hfolder]
    exact ih hfollow

/-- A path leads to a directory as it did before. -/
lemma isDirectory_iff (h : AddsFiles fs fs') :
    fs'.isDirectory cwd p = .ok true ↔ fs.isDirectory cwd p = .ok true := by
  refine ⟨fun hdir => ?_, h.isDirectory⟩
  obtain ⟨loc, hlocate, hfind⟩ := isDirectory_eq_true_iff.1 hdir
  obtain ⟨hnul, hshort, hfollow⟩ := locate_eq_ok_iff.1 hlocate
  exact isDirectory_eq_true_iff.2 ⟨loc, locate_eq_ok_iff.2
    ⟨hnul, hshort, h.follow_folder hfollow hfind⟩, (h.directory loc).2 hfind⟩

/-- What can be opened is opened at the same place. -/
lemma openDirectory (h : AddsFiles fs fs') (hopen : fs.openDirectory cwd p = .ok here) :
    fs'.openDirectory cwd p = .ok here := by
  obtain ⟨hlocate, hfind⟩ := openDirectory_eq_ok_iff.1 hopen
  rcases h.locate cwd p with hnone | hsame
  · cases hlocate.symm.trans hnone
  · exact openDirectory_eq_ok_iff.2 ⟨hsame.trans hlocate, (h.directory here).1 hfind⟩

/-- A file is read as before if it holds what it held. -/
lemma read (h : AddsFiles fs fs')
    (hkept : ∀ loc, fs.locate cwd false p = .ok (.taken loc) → fs'.find? loc = fs.find? loc) :
    fs.read cwd p = .error (.refused .notFound) ∨ fs'.read cwd p = fs.read cwd p := by
  rcases h.locate cwd p with hnone | hsame
  · exact .inl (by rw [FileSystem.read, hnone])
  · right
    rw [FileSystem.read, FileSystem.read, hsame]
    split
    · rfl
    · rfl
    · next loc hlocate => rw [hkept loc hlocate]

/-- Added files are no directories for a walk. -/
lemma isFolder (h : AddsFiles fs fs') :
    fs'.isFolder linked loc names = fs.isFolder linked loc names := by
  rw [Bool.eq_iff_iff, isFolder_iff_or, isFolder_iff_or, h.directory]
  simp only [h.link]

/-- The leaves of a directory are those that there were, and added files. -/
lemma leafNames (h : AddsFiles fs fs') : fs.leafNames linked here =
    (fs'.leafNames linked here).filter fun name => (fs.find? (here ++ [name])).isSome := by
  refine Text.eq_of_pairwise_le (Text.pairwise_sorted _) ((Text.pairwise_sorted _).filter _)
    (fs.nodup_leafNames _ _) ((fs'.nodup_leafNames _ _).filter _) fun name => ?_
  simp only [List.mem_filter, mem_leafNames_iff, Option.isSome_iff_exists, h.isFolder]
  constructor
  · rintro ⟨hvisible, ⟨e, hfind⟩, hleaf⟩
    exact ⟨⟨hvisible, h.exists_entry hfind, hleaf⟩, e, hfind⟩
  · rintro ⟨⟨hvisible, -, hleaf⟩, hthere⟩
    exact ⟨hvisible, hthere, hleaf⟩

/-- The subdirectories of a directory are those that there were. -/
lemma folderNames (h : AddsFiles fs fs') :
    fs'.folderNames linked here = fs.folderNames linked here :=
  Text.eq_of_pairwise_le (Text.pairwise_sorted _) (Text.pairwise_sorted _)
    (fs'.nodup_folderNames _ _) (fs.nodup_folderNames _ _) fun name => by
      rw [mem_folderNames_iff, mem_folderNames_iff, h.isFolder]

/-- A walk meets what it met before the files were added, in the same order, and the added files. -/
lemma walk_eq (h : AddsFiles fs fs') : fs.walk linked here =
    (fs'.walk linked here).filter fun names => (fs.find? (here ++ names)).isSome := by
  induction linked, here using FileSystem.walk.induct fs with
  | case1 linked here ih =>
    rw [fs.walk_eq, fs'.walk_eq, h.folderNames, h.leafNames, List.filter_append, List.filter_map,
      List.filter_flatMap]
    congr 1
    refine List.flatMap_congr fun folder hfolder => ?_
    obtain ⟨e, hfind, -⟩ := isFolder_iff.1 (mem_folderNames_iff.1 hfolder).2
    rw [List.filter_cons, if_pos (by rw [hfind]; rfl), List.filter_map, ih ⟨folder, hfolder⟩]
    congr 3
    funext names
    simp [Function.comp]

end AddsFiles

namespace SameShape

/-- Two values that are each the third one or the other are the same. -/
lemma eq_of_or {α : Type} {x y a : α} (hx : x = a ∨ y = x) (hy : y = a ∨ x = y) : y = x := by
  grind

/-- There is the same in both trees, or a file in each. -/
lemma find?_eq_or (h : SameShape fs fs') (loc : Location) : fs'.find? loc = fs.find? loc ∨
    ∃ content content', fs.find? loc = some (.file content) ∧
      fs'.find? loc = some (.file content') := by
  cases hfind : fs.find? loc with
  | some e =>
    cases e with
    | directory => exact .inl ((h.directory loc).1 hfind)
    | link target => exact .inl ((h.link loc target).1 hfind)
    | file content =>
      obtain ⟨content', hfind'⟩ := isFile_iff.1 ((h.file loc).1 (isFile_iff.2 ⟨content, hfind⟩))
      exact .inr ⟨content, content', rfl, hfind'⟩
  | none =>
    left
    cases hfind' : fs'.find? loc with
    | none => rfl
    | some e =>
      cases e with
      | directory => cases hfind.symm.trans ((h.directory loc).2 hfind')
      | link target => cases hfind.symm.trans ((h.link loc target).2 hfind')
      | file content' =>
        obtain ⟨content, hfile⟩ := isFile_iff.1 ((h.file loc).2 (isFile_iff.2 ⟨content', hfind'⟩))
        cases hfind.symm.trans hfile

/-- Paths are located alike in trees of the same shape. -/
lemma locate (h : SameShape fs fs') : fs'.locate cwd false p = fs.locate cwd false p :=
  eq_of_or (h.addsFiles.locate cwd p) (h.symm.addsFiles.locate cwd p)

/-- Paths become canonical alike in trees of the same shape. -/
lemma canonical (h : SameShape fs fs') (nesting : Nat) :
    fs'.canonical nesting cwd p = fs.canonical nesting cwd p :=
  eq_of_or (h.addsFiles.canonical nesting) (h.symm.addsFiles.canonical nesting)

/-- Paths are directories alike in trees of the same shape. -/
lemma isDirectory (h : SameShape fs fs') : fs'.isDirectory cwd p = fs.isDirectory cwd p := by
  have hdirectory (loc : Location) :
      (fs'.find? loc == some .directory) = (fs.find? loc == some .directory) := by
    rw [Bool.eq_iff_iff, beq_iff_eq, beq_iff_eq, h.directory]
  simp only [FileSystem.isDirectory, h.locate, hdirectory]

/-- Files are at the same places in trees of the same shape. -/
lemma isFile (h : SameShape fs fs') : fs'.isFile loc = fs.isFile loc :=
  Bool.eq_iff_iff.2 (h.file loc).symm

/-- Directories are opened alike in trees of the same shape. -/
lemma openDirectory (h : SameShape fs fs') :
    fs'.openDirectory cwd p = fs.openDirectory cwd p := by
  rw [FileSystem.openDirectory, FileSystem.openDirectory, h.locate]
  split
  · rfl
  · rfl
  · next loc _ =>
    rcases h.find?_eq_or loc with hsame | ⟨content, content', hfind, hfind'⟩
    · rw [hsame]
    · simp only [hfind, hfind']

/-- A path is read alike in trees of the same shape that agree about the file it leads to. -/
lemma read (h : SameShape fs fs')
    (hkept : ∀ loc, fs.locate cwd false p = .ok (.taken loc) → fs'.find? loc = fs.find? loc) :
    fs'.read cwd p = fs.read cwd p := by
  refine eq_of_or (h.addsFiles.read hkept) (h.symm.addsFiles.read fun loc hlocate => ?_)
  exact (hkept loc (h.locate.symm.trans hlocate)).symm

/-- A path is read alike in both trees, or it is that of a file in each. -/
lemma read_eq_or (h : SameShape fs fs') (cwd : Location) (p : Path) :
    fs'.read cwd p = fs.read cwd p ∨ ∃ loc content content',
      fs.find? loc = some (.file content) ∧ fs'.find? loc = some (.file content') ∧
      fs.read cwd p = .ok content ∧ fs'.read cwd p = .ok content' := by
  rw [FileSystem.read, FileSystem.read, h.locate]
  cases fs.locate cwd false p with
  | error fault => exact .inl rfl
  | ok place =>
    cases place with
    | free folder name => exact .inl rfl
    | taken loc =>
      rcases h.find?_eq_or loc with hsame | ⟨content, content', hfind, hfind'⟩
      · exact .inl (by simp only [hsame])
      · exact .inr ⟨loc, content, content', hfind, hfind', by simp only [hfind],
          by simp only [hfind']⟩

/-- There is something at the same places in trees of the same shape. -/
lemma isSome_find (h : SameShape fs fs') : (fs'.find? loc).isSome = (fs.find? loc).isSome := by
  rcases h.find?_eq_or loc with hsame | ⟨content, content', hfind, hfind'⟩
  · rw [hsame]
  · rw [hfind, hfind']
    rfl

/-- A walk does not depend on what the files hold. -/
lemma walk (h : SameShape fs fs') : fs'.walk linked here = fs.walk linked here := by
  rw [h.addsFiles.walk_eq, List.filter_eq_self.2]
  intro names hnames
  rw [← h.isSome_find]
  obtain ⟨-, -, e, hfind⟩ := mem_walk_iff.1 hnames
  rw [hfind]
  rfl

end SameShape

/-- Trees that differ at most in what files hold are of the same shape. -/
lemma sameShape_of_eq_or (h : ∀ loc, fs'.find? loc = fs.find? loc ∨
    ∃ content content', fs.find? loc = some (.file content) ∧
      fs'.find? loc = some (.file content')) : SameShape fs fs' := by
  refine ⟨fun loc => ?_, fun loc target => ?_, fun loc => ?_⟩
  · rcases h loc with hsame | ⟨content, content', hfind, hfind'⟩
    · rw [hsame]
    · simp [hfind, hfind']
  · rcases h loc with hsame | ⟨content, content', hfind, hfind'⟩
    · rw [hsame]
    · simp [hfind, hfind']
  · rw [isFile_iff, isFile_iff]
    rcases h loc with hsame | ⟨content, content', hfind, hfind'⟩
    · rw [hsame]
    · simp [hfind, hfind']

/-- What a new or rewritten file holds makes no difference to the shape of the tree. -/
lemma sameShape_place {content content' : List UInt8}
    (hfolder : fs.find? folder = some .directory) (hname : ValidName name)
    (hplace : fs.find? (folder ++ [name]) ≠ some .directory) :
    SameShape (fs.place folder name (.file content)) (fs.place folder name (.file content')) := by
  refine sameShape_of_eq_or fun loc => ?_
  rw [find?_place_file hfolder hname hplace, find?_place_file hfolder hname hplace]
  by_cases hloc : loc = folder ++ [name]
  · exact .inr ⟨content, content', if_pos hloc, if_pos hloc⟩
  · exact .inl (by rw [if_neg hloc, if_neg hloc])

/-- A written file is all that is added. -/
lemma addsFiles_of_written {place : Place} {content : List UInt8}
    (hplace : fs.find? place.location = none ∨ ∃ old, fs.find? place.location = some (.file old))
    (hwritten : ∀ loc, fs'.find? loc =
      if loc = place.location then some (.file content) else fs.find? loc) : AddsFiles fs fs' := by
  have hback {loc : Location} {e : Entry} (hfind : fs'.find? loc = some e)
      (he : ∀ old, e ≠ .file old) : fs.find? loc = some e := by
    rw [hwritten] at hfind
    split at hfind
    · cases hfind
      exact absurd rfl (he content)
    · exact hfind
  refine ⟨fun loc => ⟨fun hfind => ?_, fun hfind => hback hfind nofun⟩,
    fun loc target => ⟨fun hfind => ?_, fun hfind => hback hfind nofun⟩, fun loc hfile => ?_⟩
  · exact find?_of_written hplace hwritten hfind nofun
  · exact find?_of_written hplace hwritten hfind nofun
  · rw [isFile_iff] at hfile ⊢
    rw [hwritten]
    split
    · exact ⟨content, rfl⟩
    · exact hfile

end MakeDeps.FileSystem
