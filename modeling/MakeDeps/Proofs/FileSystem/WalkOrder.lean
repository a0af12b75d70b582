import MakeDeps.Proofs.FileSystem.Walk
import MakeDeps.Proofs.Search.Order

/-!
# The order of a walk

Walks come to what is no directory before they come to directories, to names in increasing order of
code points, and to a directory before they come to what lies below it (`MeetsFirst`). This puts
everything that a walk meets into one order: `pairwise_walk`.
-/

namespace MakeDeps

namespace FileSystem

variable {fs : FileSystem} {linked : List String → Bool} {loc : Location}
  {names other : List String} {name folder : String}

/-- Something is at the end of the names, and none of them is hidden. -/
def IsVisible (fs : FileSystem) (loc : Location) (names : List String) : Prop :=
  names ≠ [] ∧ (∀ name ∈ names, isHidden name = false) ∧ ∃ e, fs.find? (loc ++ names) = some e

/-- A walk from the location meets the end of the first names before that of the second ones. It
meets a directory before what lies below it. Where the names part, it meets what is no directory
before what is one, and otherwise the smaller name first. The links in `linked` are met where
directories would be. -/
def MeetsFirst (fs : FileSystem) :
    (List String → Bool) → Location → List String → List String → Prop
  | _, _, [], other => other ≠ []
  | _, _, _ :: _, [] => False
  | linked, loc, name :: names, next :: other =>
    if name = next then
      MeetsFirst fs (fun rest => linked (name :: rest)) (loc ++ [name]) names other
    else if fs.isFolder linked loc [name] = true then
      fs.isFolder linked loc [next] = true ∧ name < next
    else fs.isFolder linked loc [next] = true ∨ name < next

/-- Of two things a walk meets one first. -/
lemma MeetsFirst.asymm (h : fs.MeetsFirst linked loc names other) :
    ¬fs.MeetsFirst linked loc other names := by
  induction names generalizing linked loc other with
  | nil =>
    cases other with
    | nil => exact absurd rfl h
    | cons _ _ => exact id
  | cons name names ih =>
    cases other with
    | nil => exact h.elim
    | cons next other =>
      rw [MeetsFirst] at h ⊢
      by_cases heq : name = next
      · subst heq
        rw [if_pos rfl] at h ⊢
        exact ih h
      · rw [if_neg heq] at h
        rw [if_neg (Ne.symm heq)]
        split at h
        · next hname =>
          rw [if_pos h.1]
          exact fun hback => String.lt_asymm h.2 hback.2
        · next hname =>
          split
          · next hnext => exact fun hback => hname hback.1
          · next hnext =>
            rintro (hback | hback)
            · exact hname hback
            · exact String.lt_asymm (h.resolve_left hnext) hback

/-- In one directory things are met in the order of a walk through it. -/
lemma meetsFirst_cons : fs.MeetsFirst linked loc (name :: names) (name :: other) ↔
    fs.MeetsFirst (fun rest => linked (name :: rest)) (loc ++ [name]) names other := by
  rw [MeetsFirst, if_pos rfl]

/-- Without repetitions, what does not decrease increases. -/
lemma pairwise_lt {items : List String} (h : items.Pairwise (· ≤ ·)) (hnodup : items.Nodup) :
    items.Pairwise (· < ·) := by
  refine h.imp₂ (fun a b hle hne => ?_) hnodup
  by_contra hlt
  exact hne (String.le_antisymm hle (String.not_lt.1 hlt))

/-- The leaves of a directory come in increasing order. -/
lemma pairwise_lt_leafNames (fs : FileSystem) (linked : List String → Bool) (loc : Location) :
    (fs.leafNames linked loc).Pairwise (· < ·) :=
  pairwise_lt (Text.pairwise_sorted _) (fs.nodup_leafNames linked loc)

/-- The subdirectories of a directory come in increasing order. -/
lemma pairwise_lt_folderNames (fs : FileSystem) (linked : List String → Bool) (loc : Location) :
    (fs.folderNames linked loc).Pairwise (· < ·) :=
  pairwise_lt (Text.pairwise_sorted _) (fs.nodup_folderNames linked loc)

/-- A walk meets things in order. -/
lemma pairwise_walk (fs : FileSystem) (linked : List String → Bool) (loc : Location) :
    (fs.walk linked loc).Pairwise (fs.MeetsFirst linked loc) := by
  induction linked, loc using FileSystem.walk.induct fs with
  | case1 linked loc ih =>
    have hfolder : ∀ name ∈ fs.folderNames linked loc, fs.isFolder linked loc [name] = true :=
      fun name hname => (mem_folderNames_iff.1 hname).2
    have hleaf : ∀ name ∈ fs.leafNames linked loc, ¬fs.isFolder linked loc [name] = true :=
      fun name hname => by simp [(mem_leafNames_iff.1 hname).2.2]
    -- whatever a walk meets in a directory starts with the name of that directory
    have hbelow {folder : String} {names : List String} (hnames : names ∈ [folder] ::
        (fs.walk (fun rest => linked (folder :: rest)) (loc ++ [folder])).map (folder :: ·)) :
        ∃ rest, names = folder :: rest := by
      rcases List.mem_cons.1 hnames with rfl | hnames
      · exact ⟨[], rfl⟩
      · obtain ⟨rest, -, rfl⟩ := List.mem_map.1 hnames
        exact ⟨rest, rfl⟩
    rw [walk_eq, List.pairwise_append, List.pairwise_map, List.pairwise_flatMap]
    refine ⟨?_, ⟨fun folder hmem => ?_, ?_⟩, ?_⟩
    · refine (fs.pairwise_lt_leafNames linked loc).imp_of_mem fun hname hnext hlt => ?_
      rw [MeetsFirst, if_neg (String.ne_of_lt hlt), if_neg (hleaf _ hname)]
      exact .inr hlt
    · refine List.pairwise_cons.2 ⟨fun names hnames => ?_, ?_⟩
      · obtain ⟨names, hwalk, rfl⟩ := List.mem_map.1 hnames
        rw [meetsFirst_cons]
        rintro rfl
        exact nil_not_mem_walk fs _ _ hwalk
      · rw [List.pairwise_map]
        exact (ih ⟨folder, hmem⟩).imp meetsFirst_cons.2
    · refine (fs.pairwise_lt_folderNames linked loc).imp_of_mem fun hname hnext hlt => ?_
      intro names hnames other hother
      obtain ⟨rest, rfl⟩ := hbelow hnames
      obtain ⟨rest', rfl⟩ := hbelow hother
      rw [MeetsFirst, if_neg (String.ne_of_lt hlt), if_pos (hfolder _ hname)]
      exact ⟨hfolder _ hnext, hlt⟩
    · intro names hnames other hother
      obtain ⟨name, hname, rfl⟩ := List.mem_map.1 hnames
      obtain ⟨folder, hmem, hother⟩ := List.mem_flatMap.1 hother
      obtain ⟨rest, rfl⟩ := hbelow hother
      have hne : name ≠ folder := by
        rintro rfl
        exact hleaf name hname (hfolder name hmem)
      rw [MeetsFirst, if_neg hne, if_neg (hleaf name hname)]
      exact .inl (hfolder folder hmem)

end FileSystem

end MakeDeps
