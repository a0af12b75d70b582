import Mathlib.Data.List.Nodup
import MakeDeps.Proofs.FileSystem.Follow

/-!
# What a walk meets

A walk meets what lies below the directory that it starts from, as far as no hidden name leads
there, and nothing else: `mem_walk_iff`.
-/

namespace MakeDeps.FileSystem

variable {fs : FileSystem} {linked : List String → Bool} {loc : Location} {names : List String}
  {name : String}

/-- What stands under a name in a directory is an entry. -/
lemma find?_concat_eq_some_iff {e : Entry} :
    fs.find? (loc ++ [name]) = some e ↔ (loc ++ [name], e) ∈ fs.entries := by
  simp [find?_eq_some_iff]

/-- A directory has each of its children once. -/
lemma nodup_children (fs : FileSystem) (loc : Location) :
    ((fs.children loc).map Prod.fst).Nodup := by
  rw [List.Nodup, List.pairwise_map, children, List.pairwise_filterMap]
  refine (List.pairwise_map.1 fs.unique).imp ?_
  intro x x' hne child hchild child' hchild'
  split at hchild
  · next name hdrop =>
    split at hchild'
    · next name' hdrop' =>
      cases hchild
      cases hchild'
      -- the place of an entry is known from the name that it has as a child
      rintro (rfl : name = name')
      rw [Text.dropStart?_eq_some_iff] at hdrop hdrop'
      exact hne (hdrop.symm.trans hdrop')
    · cases hchild'
  · cases hchild

/-- What is picked among pairs by their names has each name once if the pairs do. -/
lemma nodup_filterMap_fst {α β : Type} {f : α × β → Option α} (hf : ∀ x a, f x = some a → x.1 = a)
    {xs : List (α × β)} (h : (xs.map Prod.fst).Nodup) : (xs.filterMap f).Nodup := by
  refine List.Nodup.sublist ?_ h
  clear h
  induction xs with
  | nil => simp
  | cons x xs ih =>
    rw [List.filterMap_cons, List.map_cons]
    split
    · exact ih.cons _
    · next a ha =>
      rw [hf x a ha]
      exact ih.cons_cons _

/-- A directory has each of its leaves once. -/
lemma nodup_leafNames (fs : FileSystem) (linked : List String → Bool) (loc : Location) :
    (fs.leafNames linked loc).Nodup := by
  refine Text.nodup_sorted (nodup_filterMap_fst ?_ (fs.nodup_children loc))
  exact fun child name heq => Option.some.inj (Option.ite_none_left_eq_some.1 heq).2

/-- A directory has each of its subdirectories once. -/
lemma nodup_folderNames (fs : FileSystem) (linked : List String → Bool) (loc : Location) :
    (fs.folderNames linked loc).Nodup := by
  refine Text.nodup_sorted (nodup_filterMap_fst ?_ (fs.nodup_children loc))
  exact fun child name heq => Option.some.inj (Option.ite_none_right_eq_some.1 heq).2

/-- The end of the names is a directory for a walk where something is that is one. -/
lemma isFolder_iff : fs.isFolder linked loc names = true ↔
    ∃ e, fs.find? (loc ++ names) = some e ∧ isFolderEntry linked names e = true := by
  unfold isFolder
  cases fs.find? (loc ++ names) <;> simp

/-- The leaves of a directory are what is there, is not hidden, and is no directory. -/
lemma mem_leafNames_iff : name ∈ fs.leafNames linked loc ↔
    isHidden name = false ∧ (∃ e, fs.find? (loc ++ [name]) = some e) ∧
      fs.isFolder linked loc [name] = false := by
  rw [← Bool.not_eq_true (fs.isFolder linked loc [name]), isFolder_iff]
  simp only [leafNames, Text.sorted, List.mem_mergeSort, List.mem_filterMap,
    find?_concat_eq_some_iff, Option.ite_none_left_eq_some, Bool.or_eq_true, not_or]
  constructor
  · rintro ⟨⟨other, e⟩, hmem, ⟨hvisible, hleaf⟩, heq⟩
    cases heq
    refine ⟨by simpa using hvisible, ⟨e, mem_children_iff.1 hmem⟩, ?_⟩
    rintro ⟨e', hentry, hfolder⟩
    have hfind := find?_concat_eq_some_iff.2 hentry
    cases hfind.symm.trans (find?_concat_eq_some_iff.2 (mem_children_iff.1 hmem))
    exact hleaf hfolder
  · rintro ⟨hvisible, ⟨e, hentry⟩, hleaf⟩
    exact ⟨(name, e), mem_children_iff.2 hentry,
      ⟨by simp [hvisible], fun hfolder => hleaf ⟨e, hentry, hfolder⟩⟩, rfl⟩

/-- The subdirectories of a directory are what is not hidden and is a directory for a walk. -/
lemma mem_folderNames_iff : name ∈ fs.folderNames linked loc ↔
    isHidden name = false ∧ fs.isFolder linked loc [name] = true := by
  rw [isFolder_iff]
  simp only [folderNames, Text.sorted, List.mem_mergeSort, List.mem_filterMap,
    find?_concat_eq_some_iff, Option.ite_none_right_eq_some, Bool.and_eq_true]
  constructor
  · rintro ⟨⟨other, e⟩, hmem, ⟨hvisible, hfolder⟩, heq⟩
    cases heq
    exact ⟨by simpa using hvisible, e, mem_children_iff.1 hmem, hfolder⟩
  · rintro ⟨hvisible, e, hentry, hfolder⟩
    exact ⟨(name, e), mem_children_iff.2 hentry, ⟨by simp [hvisible], hfolder⟩, rfl⟩

/-- A walk lists the leaves of a directory, and then one subdirectory after the other. -/
lemma walk_eq (fs : FileSystem) (linked : List String → Bool) (loc : Location) :
    fs.walk linked loc = (fs.leafNames linked loc).map (fun name => [name]) ++
      (fs.folderNames linked loc).flatMap fun folder => [folder] ::
        (fs.walk (fun names => linked (folder :: names)) (loc ++ [folder])).map (folder :: ·) := by
  rw [walk]
  simp

/-- A walk does not meet the directory that it starts from. -/
lemma nil_not_mem_walk (fs : FileSystem) (linked : List String → Bool) (loc : Location) :
    [] ∉ fs.walk linked loc := by
  rw [walk_eq]
  simp

/-- What a walk meets is a leaf, a subdirectory, or something below one. -/
lemma mem_walk_concat : name :: names ∈ fs.walk linked loc ↔
    names = [] ∧ name ∈ fs.leafNames linked loc ∨
      name ∈ fs.folderNames linked loc ∧
        (names = [] ∨ names ∈ fs.walk (fun rest => linked (name :: rest)) (loc ++ [name])) := by
  rw [walk_eq]
  simp only [List.mem_append, List.mem_map, List.mem_flatMap, List.mem_cons]
  grind

/-- A walk meets what is there below the directory that it starts from and no hidden name leads
to, whichever links lead to directories. -/
lemma mem_walk_iff : names ∈ fs.walk linked loc ↔
    names ≠ [] ∧ (∀ name ∈ names, isHidden name = false) ∧
      ∃ e, fs.find? (loc ++ names) = some e := by
  induction names generalizing loc linked with
  | nil => simp [nil_not_mem_walk]
  | cons name rest ih =>
    have hshift : loc ++ name :: rest = loc ++ [name] ++ rest := by simp
    rw [mem_walk_concat, mem_leafNames_iff, mem_folderNames_iff, ih, hshift, List.forall_mem_cons]
    constructor
    · rintro (⟨rfl, hvisible, ⟨e, hfind⟩, -⟩ | ⟨⟨hvisible, hfolder⟩, rfl | ⟨-, hrest, hthere⟩⟩)
      · exact ⟨by simp, ⟨hvisible, by simp⟩, e, by rwa [List.append_nil]⟩
      · obtain ⟨e, hfind, -⟩ := isFolder_iff.1 hfolder
        exact ⟨by simp, ⟨hvisible, by simp⟩, e, by rwa [List.append_nil]⟩
      · exact ⟨by simp, ⟨hvisible, hrest⟩, hthere⟩
    · rintro ⟨-, ⟨hvisible, hrest⟩, e, hfind⟩
      by_cases hnil : rest = []
      · subst hnil
        rw [List.append_nil] at hfind
        cases hfolder : fs.isFolder linked loc [name] with
        | true => exact .inr ⟨⟨hvisible, rfl⟩, .inl rfl⟩
        | false => exact .inl ⟨rfl, hvisible, ⟨e, hfind⟩, rfl⟩
      · -- what lies below the first name makes that a directory
        have hfolder : fs.isFolder linked loc [name] = true :=
          isFolder_iff.2 ⟨.directory, find?_above hfind hnil, rfl⟩
        exact .inr ⟨⟨hvisible, hfolder⟩, .inr ⟨hnil, hrest, e, hfind⟩⟩

end MakeDeps.FileSystem
