import MakeDeps.FileSystem.Edit
import MakeDeps.FileSystem.Settled
import MakeDeps.Proofs.FileSystem.Writing

/-!
# Edits along direct paths

A path is direct if no link stands on its way; it leads where its names say (`location_of_locate`).
What is written or removed along such a path, or made a directory, leaves everything as it is that
is neither there nor below (`find?_write_direct`, `find?_remove_direct`, `find?_makeDirectory`).
-/

namespace MakeDeps.FileSystem

variable {fs fs' : FileSystem} {cwd here loc : Location} {names : List String} {p : Path}
  {content : List UInt8} {e : Entry}

/-- No link stands where the path leads, or on the way there. -/
def IsDirect (fs : FileSystem) (cwd : Location) (p : Path) : Prop :=
  ∀ names, names <+: p.parts → ∀ target,
    fs.find? ((⟨p.anchor, names⟩ : Path).locationFrom cwd) ≠ some (.link target)

/-- Every link of the second tree is one of the first tree. -/
def AddsNoLink (fs fs' : FileSystem) : Prop :=
  ∀ loc target, fs'.find? loc = some (.link target) → fs.find? loc = some (.link target)

/-- A path that leads past no link does not do so where none is added. -/
lemma IsDirect.of_addsNoLink (h : fs.IsDirect cwd p) (hlinks : AddsNoLink fs fs') :
    fs'.IsDirect cwd p :=
  fun names hnames target hlink => h names hnames target (hlinks _ _ hlink)

/-- The parent of a path that leads past no link leads past none. -/
lemma IsDirect.parent (h : fs.IsDirect cwd p) : fs.IsDirect cwd p.parent :=
  fun names hnames => h names (hnames.trans (List.dropLast_prefix p.parts))

/-- Where names lead to from a location without links on the way. -/
def along (here : Location) (names : List String) : Location :=
  names.foldl (fun loc name => if name = ".." then loc.dropLast else loc ++ [name]) here

/-- Names without two dots lead down from where they start. -/
lemma along_eq_append (h : ∀ name ∈ names, name ≠ "..") : along here names = here ++ names := by
  induction names generalizing here with
  | nil => simp [along]
  | cons name names ih =>
    have hname : name ≠ ".." := h name List.mem_cons_self
    have hrest : along (here ++ [name]) names = here ++ [name] ++ names :=
      ih fun other hother => h other (List.mem_cons_of_mem _ hother)
    rw [List.append_assoc, List.singleton_append] at hrest
    simpa [along, hname] using hrest

/-- A path that leads past no link leads along its names. -/
lemma location_of_follow {creating : Bool} {links : Nat} {place : Place}
    (h : fs.follow creating links here names = .ok place)
    (hnames : ∀ name ∈ names, Path.IsPart name)
    (hdirect : ∀ before, before <+: names → ∀ target,
      fs.find? (along here before) ≠ some (.link target)) :
    place.location = along here names := by
  fun_induction follow fs creating links here names with
  | case1 =>
    cases h
    rfl
  | case3 _ _ name _ _ hskip _ =>
    obtain ⟨hne, hdot, -⟩ := hnames name List.mem_cons_self
    exact absurd hskip (not_or.2 ⟨hne, hdot⟩)
  | case4 _ here _ _ _ ih =>
    refine ih h (fun name hname => hnames name (List.mem_cons_of_mem _ hname))
      fun before hbefore => ?_
    exact hdirect (".." :: before) (List.cons_prefix_cons.2 ⟨rfl, hbefore⟩)
  | case7 _ here name _ _ _ hup _ _ _ hlast =>
    cases h
    obtain ⟨-, rfl⟩ := hlast
    simp [Place.location, along, hup]
  | case10 here name _ _ _ hup _ _ target hlink _ _ _ =>
    have hstep : along here [name] = here ++ [name] := by simp [along, hup]
    refine absurd hlink ?_
    rw [← hstep]
    exact hdirect [name] (List.cons_prefix_cons.2 ⟨rfl, List.nil_prefix⟩) target
  | case11 _ here name rest _ _ hup _ _ _ _ _ ih =>
    have hstep : ∀ after, along here (name :: after) = along (here ++ [name]) after := by
      intro after
      simp [along, hup]
    rw [hstep]
    refine ih h (fun name hname => hnames name (List.mem_cons_of_mem _ hname))
      fun before hbefore => ?_
    rw [← hstep]
    exact hdirect (name :: before) (List.cons_prefix_cons.2 ⟨rfl, hbefore⟩)
  | _ => cases h

/-- A direct path leads where its names say. -/
lemma location_of_locate {creating : Bool} {place : Place}
    (h : fs.locate cwd creating p = .ok place) (hp : ∀ part ∈ p.parts, Path.IsPart part)
    (hdirect : fs.IsDirect cwd p) : place.location = p.locationFrom cwd :=
  location_of_follow (locate_eq_ok_iff.1 h).2.2 hp hdirect

/-- What lies neither at the end of a direct path nor below it is as before when the file has been
written. -/
lemma find?_write_direct (h : fs.write cwd p content = .ok fs')
    (hp : ∀ part ∈ p.parts, Path.IsPart part) (hdirect : fs.IsDirect cwd p)
    (hapart : ¬ p.locationFrom cwd <+: loc) : fs'.find? loc = fs.find? loc := by
  obtain ⟨place, hlocate, -, hwritten⟩ := find?_write h fun part hpart => (hp part hpart).2.2
  rw [hwritten, location_of_locate hlocate hp hdirect, if_neg]
  rintro rfl
  exact hapart List.prefix_rfl

/-- Writing a file adds no link. -/
lemma addsNoLink_write (h : fs.write cwd p content = .ok fs')
    (hp : ∀ part ∈ p.parts, Path.IsPart part) : AddsNoLink fs fs' := by
  obtain ⟨place, -, -, hwritten⟩ := find?_write h fun part hpart => (hp part hpart).2.2
  intro loc target hlink
  rw [hwritten] at hlink
  split at hlink
  · cases hlink
  · exact hlink

/-- Erasing adds no link. -/
lemma addsNoLink_erase (hne : loc ≠ []) : AddsNoLink fs (fs.erase loc) := by
  intro other target hlink
  rw [find?_erase hne] at hlink
  split at hlink
  · cases hlink
  · exact hlink

/-- A removal erases a name in the directory where the path ends, or does nothing. -/
lemma edit_remove (fs : FileSystem) (cwd : Location) (p : Path) :
    (∃ folder, fs.locate cwd false p.parent = .ok (.taken folder) ∧
      fs.edit cwd (.remove p) = fs.erase (folder ++ [p.name])) ∨ fs.edit cwd (.remove p) = fs := by
  cases hfolder : fs.openDirectory cwd p.parent with
  | ok folder =>
    obtain ⟨hlocate, -⟩ := openDirectory_eq_ok_iff.1 hfolder
    exact .inl ⟨folder, hlocate, by simp [edit, hfolder]⟩
  | error fault => exact .inr (by simp [edit, hfolder])

/-- Removing something adds no link. -/
lemma addsNoLink_remove : AddsNoLink fs (fs.edit cwd (.remove p)) := by
  rcases edit_remove fs cwd p with ⟨folder, -, heq⟩ | heq
  · rw [heq]
    exact addsNoLink_erase (List.concat_ne_nil _ _)
  · rw [heq]
    exact fun _ _ hlink => hlink

/-- What lies neither at the end of a direct path nor below it stays when the end is removed. -/
lemma find?_remove_direct (hp : ∀ part ∈ p.parts, Path.IsPart part) (hdirect : fs.IsDirect cwd p)
    (hapart : ¬ p.locationFrom cwd <+: loc) (hfind : fs.find? loc = some e) :
    (fs.edit cwd (.remove p)).find? loc = some e := by
  rcases edit_remove fs cwd p with ⟨folder, hlocate, heq⟩ | heq
  · have hparts : ∀ part ∈ p.parent.parts, Path.IsPart part := fun part hpart =>
      hp part ((List.dropLast_prefix p.parts).subset hpart)
    have hlocation : folder = p.parent.locationFrom cwd :=
      location_of_locate hlocate hparts hdirect.parent
    rw [heq, find?_erase (List.concat_ne_nil _ _), if_neg, hfind]
    intro hpre
    -- nothing is called like the end of a path that goes upwards, or that has no end
    obtain ⟨hne, -, hup, -⟩ := validName_of_mem hfind p.name (hpre.subset (by simp))
    obtain hnil | ⟨before, last, hlast⟩ := List.eq_nil_or_concat p.parts
    · exact hne (by simp [Path.name, hnil])
    · rw [List.concat_eq_append] at hlast
      have hname : p.name = last := by simp [Path.name, hlast]
      rw [hname] at hup hpre
      apply hapart
      rw [hlocation] at hpre
      simpa [Path.locationFrom, Path.parent, hlast, hup] using hpre
  · rw [heq, hfind]

/-- Nothing is placed where it does not fit. -/
lemma place_of_not_fit {folder : Location} {name : String}
    (h : ¬(fs.find? folder = some .directory ∧ ValidName name ∧ e.Valid)) :
    fs.place folder name e = fs := by
  rw [place, dif_neg h]

/-- Making a directory where nothing is changes nothing else. -/
lemma find?_place_directory {name : String} (hnone : fs.find? (here ++ [name]) = none) :
    AddsNoLink fs (fs.place here name .directory) ∧ ∀ loc e, fs.find? loc = some e →
      (fs.place here name .directory).find? loc = some e := by
  by_cases hfit : fs.find? here = some .directory ∧ ValidName name ∧ Entry.directory.Valid
  · constructor
    · intro loc target hlink
      rw [find?_place hfit] at hlink
      split at hlink
      · cases hlink
      · split at hlink
        · cases hlink
        · exact hlink
    · intro loc e hfind
      have hdirectory : fs.find? (here ++ [name]) ≠ some .directory := by
        rw [hnone]
        exact nofun
      have hne : loc ≠ here ++ [name] := by
        rintro rfl
        rw [hnone] at hfind
        cases hfind
      rw [find?_place hfit, if_neg hne, if_neg, hfind]
      intro hpre
      rw [find?_below hdirectory hpre hne] at hfind
      cases hfind
  · rw [place_of_not_fit hfit]
    exact ⟨fun _ _ hlink => hlink, fun _ _ hfind => hfind⟩

/-- Where something is not found, there is nothing. -/
lemma find?_of_lookAt_notFound {name : String} (h : fs.lookAt here name = .error .notFound) :
    fs.find? (here ++ [name]) = none := by
  unfold lookAt at h
  split at h
  · cases h
  · split at h
    · cases h
    · split at h
      · next hnone => exact hnone
      · cases h

/-- Making directories adds no link, and leaves what is there. -/
lemma find?_makeDirectories : AddsNoLink fs (fs.makeDirectories here names) ∧
    ∀ loc e, fs.find? loc = some e → (fs.makeDirectories here names).find? loc = some e := by
  induction names generalizing fs here with
  | nil => exact ⟨fun _ _ hlink => hlink, fun _ _ hfind => hfind⟩
  | cons name names ih =>
    unfold makeDirectories
    split
    · exact ih
    · next hnone _ =>
      obtain ⟨hlinks, hkept⟩ := find?_place_directory (find?_of_lookAt_notFound hnone)
      obtain ⟨hlinks', hkept'⟩ := @ih (fs.place here name .directory) (here ++ [name])
      refine ⟨fun loc target hlink => ?_, fun loc e hfind => ?_⟩
      · exact hlinks loc target (hlinks' loc target hlink)
      · exact hkept' loc e (hkept loc e hfind)
    · exact ⟨fun _ _ hlink => hlink, fun _ _ hfind => hfind⟩

/-- Whatever is there stays when a directory is made. -/
lemma find?_makeDirectory (hfind : fs.find? loc = some e) :
    (fs.edit cwd (.makeDirectory p)).find? loc = some e :=
  find?_makeDirectories.2 loc e hfind

/-- Making a directory adds no link. -/
lemma addsNoLink_makeDirectory : AddsNoLink fs (fs.edit cwd (.makeDirectory p)) :=
  find?_makeDirectories.1

end MakeDeps.FileSystem
