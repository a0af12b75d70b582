import MakeDeps.Text.Cut

/-!
# File systems

A file system is a finite tree of directories, regular files and symbolic links. It is kept as a
finite map from locations to entries, and the type holds what makes this map a tree: a location
has one entry, names are names, and what an entry lies in is a directory. `place` and `erase` are
the two ways to change it.
-/

namespace MakeDeps

/-- A place in the tree: the names that lead to it from the root directory. -/
abbrev Location := List String

/-- What can stand at a location. -/
inductive Entry where
  | file (content : List UInt8)
  | link (target : String)
  | directory
  deriving DecidableEq

/-- The names that an entry of a directory can have. -/
def ValidName (name : String) : Prop :=
  name ≠ "" ∧ name ≠ "." ∧ name ≠ ".." ∧ '/' ∉ name.toList ∧ '\x00' ∉ name.toList ∧
    name.utf8ByteSize ≤ 255

/-- Whether a name is valid can be computed. -/
instance (name : String) : Decidable (ValidName name) := by
  unfold ValidName
  infer_instance

/-- A link says where it leads, in a text that the system can hold. -/
def Entry.Valid : Entry → Prop
  | .link target => target ≠ "" ∧ '\x00' ∉ target.toList
  | .file _ => True
  | .directory => True

/-- Whether what stands at a place is valid can be computed. -/
instance (e : Entry) : Decidable e.Valid := by
  cases e <;> unfold Entry.Valid <;> infer_instance

/-- A tree of entries below the root directory, which itself is always there. -/
structure FileSystem where
  entries : List (Location × Entry)
  unique : (entries.map Prod.fst).Nodup
  valid : ∀ x ∈ entries, x.2.Valid
  rooted : ∀ x ∈ entries, ∃ parent name, x.1 = parent ++ [name] ∧ ValidName name ∧
    (parent = [] ∨ (parent, Entry.directory) ∈ entries)

namespace FileSystem

/-- The file system that consists of the root directory. -/
def empty : FileSystem := ⟨[], by simp, by simp, by simp⟩

/-- What stands at a location. -/
def find? (fs : FileSystem) : Location → Option Entry
  | [] => some .directory
  | name :: rest => fs.entries.lookup (name :: rest)

/-- At the location without names stands the root directory. -/
@[simp] theorem find?_nil (fs : FileSystem) : fs.find? [] = some .directory := rfl

/-- Looking up a key among pairs with distinct keys finds exactly the pairs that are there. -/
theorem lookup_eq_some_iff_mem {α β : Type} [BEq α] [LawfulBEq α] {xs : List (α × β)}
    (h : (xs.map Prod.fst).Nodup) {a : α} {b : β} : xs.lookup a = some b ↔ (a, b) ∈ xs := by
  induction xs with
  | nil => simp
  | cons x xs ih =>
    obtain ⟨k, v⟩ := x
    simp only [List.map_cons, List.nodup_cons, List.mem_map, Prod.exists, exists_and_right,
      exists_eq_right, not_exists] at h
    by_cases hk : a = k
    · subst hk
      have := h.1 b
      simp [this, eq_comm]
    · have hne : (a == k) = false := by simp [hk]
      simp [List.lookup_cons, hne, hk, ih h.2]

/-- The entries of a file system are what it has besides the root directory. -/
theorem find?_eq_some_iff {fs : FileSystem} {loc : Location} {e : Entry} :
    fs.find? loc = some e ↔ (loc = [] ∧ e = .directory) ∨ (loc, e) ∈ fs.entries := by
  cases loc with
  | nil =>
    have : ([], e) ∉ fs.entries := fun hmem => by
      obtain ⟨parent, name, hloc, -⟩ := fs.rooted _ hmem
      simp at hloc
    simp [this, eq_comm]
  | cons name rest => simp [find?, lookup_eq_some_iff_mem fs.unique]

/-- Puts an entry into a directory, in place of whatever was there under that name. Where there
is no such directory, or the name or the entry is unfit, nothing changes. -/
def place (fs : FileSystem) (parent : Location) (name : String) (e : Entry) : FileSystem :=
  if h : fs.find? parent = some .directory ∧ ValidName name ∧ e.Valid then
    { entries := (parent ++ [name], e) ::
        fs.entries.filter fun x => !(parent ++ [name]).isPrefixOf x.1
      unique := by
        refine List.nodup_cons.2 ⟨?_, ?_⟩
        · simp
        · exact (List.filter_sublist.map Prod.fst).nodup fs.unique
      valid := by
        intro x hx
        rcases List.mem_cons.1 hx with rfl | hx
        · exact h.2.2
        · exact fs.valid x (List.mem_filter.1 hx |>.1)
      rooted := by
        intro x hx
        rcases List.mem_cons.1 hx with rfl | hx
        · refine ⟨parent, name, rfl, h.2.1, ?_⟩
          rcases find?_eq_some_iff.1 h.1 with hroot | hmem
          · exact .inl hroot.1
          · refine .inr (List.mem_cons_of_mem _ (List.mem_filter.2 ⟨hmem, ?_⟩))
            simp only [Bool.not_eq_true', Bool.eq_false_iff, ne_eq, List.isPrefixOf_iff_prefix]
            intro hpre
            have := hpre.length_le
            rw [List.length_append, List.length_singleton] at this
            omega
        · obtain ⟨hmem, hout⟩ := List.mem_filter.1 hx
          obtain ⟨up, last, heq, hname, hup⟩ := fs.rooted x hmem
          refine ⟨up, last, heq, hname, hup.imp_right fun hdir => ?_⟩
          refine List.mem_cons_of_mem _ (List.mem_filter.2 ⟨hdir, ?_⟩)
          simp only [Bool.not_eq_true', Bool.eq_false_iff, ne_eq, List.isPrefixOf_iff_prefix]
            at hout ⊢
          exact fun hpre => hout (heq ▸ hpre.trans (List.prefix_append _ _)) }
  else fs

/-- Takes away what stands at a location, with everything below it. -/
def erase (fs : FileSystem) (loc : Location) : FileSystem where
  entries := fs.entries.filter fun x => !loc.isPrefixOf x.1
  unique := (List.filter_sublist.map Prod.fst).nodup fs.unique
  valid := fun x hx => fs.valid x (List.mem_filter.1 hx |>.1)
  rooted := by
    intro x hx
    obtain ⟨hmem, hout⟩ := List.mem_filter.1 hx
    obtain ⟨up, last, heq, hname, hup⟩ := fs.rooted x hmem
    refine ⟨up, last, heq, hname, hup.imp_right fun hdir => List.mem_filter.2 ⟨hdir, ?_⟩⟩
    simp only [Bool.not_eq_true', Bool.eq_false_iff, ne_eq, List.isPrefixOf_iff_prefix] at hout ⊢
    exact fun hpre => hout (heq ▸ hpre.trans (List.prefix_append _ _))

/-- The locations of all links. -/
def links (fs : FileSystem) : List Location :=
  fs.entries.filterMap fun
    | (loc, .link _) => some loc
    | _ => none

/-- The names in a directory, with what they stand for. -/
def children (fs : FileSystem) (loc : Location) : List (String × Entry) :=
  fs.entries.filterMap fun x =>
    match Text.dropStart? loc x.1 with
    | some [name] => some (name, x.2)
    | _ => none

/-- The paths, as names, that lead from a location to what lies below it. -/
def below (fs : FileSystem) (loc : Location) : List (List String) :=
  fs.entries.filterMap fun x => Text.dropStart? loc x.1

end FileSystem

end MakeDeps
