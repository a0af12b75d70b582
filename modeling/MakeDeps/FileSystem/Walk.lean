import MakeDeps.FileSystem.Follow
import MakeDeps.Text.Order

/-!
# Walking a tree

What a directory holds that is no directory, in increasing order, then its subdirectories in
increasing order, each with everything below it. Hidden names, those that start with a dot, are
passed over. Links to directories count as directories and are not entered.
-/

namespace MakeDeps.FileSystem

/-- Is the name left out of walks? -/
def isHidden (name : String) : Bool :=
  name.toList.head? == some '.'

/-- Is this a directory for a walk: a directory, or a link that leads to one? The links that do
are given by the names that lead to them. -/
def isFolderEntry (linked : List String → Bool) (names : List String) : Entry → Bool
  | .directory => true
  | .link _ => linked names
  | .file _ => false

/-- The names in a directory that are not hidden and stand for no directory. -/
def leafNames (fs : FileSystem) (linked : List String → Bool) (loc : Location) : List String :=
  Text.sorted <| (fs.children loc).filterMap fun child =>
    if isHidden child.1 || isFolderEntry linked [child.1] child.2 then none else some child.1

/-- The names in a directory that are not hidden and stand for directories. -/
def folderNames (fs : FileSystem) (linked : List String → Bool) (loc : Location) : List String :=
  Text.sorted <| (fs.children loc).filterMap fun child =>
    if !isHidden child.1 && isFolderEntry linked [child.1] child.2 then some child.1 else none

/-- The greatest number of names in a location of the file system. -/
def height (fs : FileSystem) : Nat :=
  (fs.entries.map fun x => x.1.length).foldr max 0

/-- The height bounds the number of names of every entry. -/
theorem length_le_height {fs : FileSystem} {loc : Location} {e : Entry}
    (h : (loc, e) ∈ fs.entries) : loc.length ≤ fs.height := by
  have bound : ∀ (ns : List Nat) (n : Nat), n ∈ ns → n ≤ ns.foldr max 0 := by
    intro ns n hn
    induction ns with
    | nil => cases hn
    | cons m ns ih =>
      rcases List.mem_cons.1 hn with rfl | hn
      · exact Nat.le_max_left _ _
      · exact Nat.le_trans (ih hn) (Nat.le_max_right _ _)
  exact bound _ _ (List.mem_map.2 ⟨(loc, e), h, rfl⟩)

/-- What is listed as a child of a location stands one name below it. -/
theorem mem_children_iff {fs : FileSystem} {loc : Location} {name : String} {e : Entry} :
    (name, e) ∈ fs.children loc ↔ (loc ++ [name], e) ∈ fs.entries := by
  unfold children
  rw [List.mem_filterMap]
  constructor
  · rintro ⟨⟨key, e'⟩, hmem, heq⟩
    dsimp only at heq
    split at heq
    · next n hpre =>
      obtain ⟨rfl, rfl⟩ := Prod.mk.inj (Option.some.inj heq)
      rw [Text.dropStart?_eq_some_iff] at hpre
      exact hpre ▸ hmem
    · cases heq
  · intro hmem
    refine ⟨_, hmem, ?_⟩
    have : Text.dropStart? loc (loc ++ [name]) = some [name] :=
      Text.dropStart?_eq_some_iff.2 rfl
    simp [this]

/-- What is listed as a directory is there. -/
theorem exists_entry_of_mem_folderNames {fs : FileSystem} {linked : List String → Bool}
    {loc : Location} {name : String} (h : name ∈ fs.folderNames linked loc) :
    ∃ e, (loc ++ [name], e) ∈ fs.entries := by
  simp only [folderNames, Text.sorted, List.mem_mergeSort, List.mem_filterMap,
    Option.ite_none_right_eq_some] at h
  obtain ⟨⟨other, e⟩, hmem, -, heq⟩ := h
  cases heq
  exact ⟨e, mem_children_iff.1 hmem⟩

/-- Is there a regular file at the location? -/
def isFile (fs : FileSystem) (loc : Location) : Bool :=
  match fs.find? loc with
  | some (.file _) => true
  | _ => false

/-- Is there a directory for a walk at the end of the names? -/
def isFolder (fs : FileSystem) (linked : List String → Bool) (loc : Location)
    (names : List String) : Bool :=
  match fs.find? (loc ++ names) with
  | some e => isFolderEntry linked names e
  | none => false

/-- Whatever lies below a location and no hidden name and no link leads to, each as the names that
lead to it: first what is no directory, then the directories, each followed by what lies below it.
A link to a directory comes where a directory would. -/
def walk (fs : FileSystem) (linked : List String → Bool) (loc : Location) : List (List String) :=
  (fs.leafNames linked loc).map (fun name => [name]) ++
    (fs.folderNames linked loc).attach.flatMap fun folder =>
      [folder.1] :: (walk fs (fun names => linked (folder.1 :: names)) (loc ++ [folder.1])).map
        (folder.1 :: ·)
  termination_by fs.height - loc.length
  decreasing_by
    obtain ⟨e, hentry⟩ := exists_entry_of_mem_folderNames folder.2
    have := length_le_height hentry
    simp only [List.length_append, List.length_singleton] at this ⊢
    omega

end MakeDeps.FileSystem
