import Mathlib.Tactic.Lemma
import MakeDeps.FileSystem.Canonical

/-!
# What a canonical location is

Canonical locations are where something stands that is no link: `canonical_stands`. The resolution
goes from one such location to another, upwards, downwards, and along links that have been resolved
before.
-/

namespace MakeDeps.FileSystem

/-- Something stands at the location, and it is no link. -/
def Stands (fs : FileSystem) (loc : Location) : Prop :=
  ∃ e, fs.find? loc = some e ∧ ∀ target, e ≠ .link target

/-- The root stands. -/
lemma stands_root (fs : FileSystem) : fs.Stands [] :=
  ⟨.directory, rfl, nofun⟩

/-- Where something is, there is a directory above it. -/
lemma find?_dropLast {fs : FileSystem} {loc : Location} {e : Entry} (h : fs.find? loc = some e) :
    fs.find? loc.dropLast = some .directory := by
  rcases find?_eq_some_iff.1 h with ⟨rfl, -⟩ | hmem
  · rfl
  · obtain ⟨parent, name, rfl, -, hparent⟩ := fs.rooted _ hmem
    rw [List.dropLast_concat]
    rcases hparent with rfl | hparent
    · rfl
    · exact find?_eq_some_iff.2 (.inr hparent)

/-- What stands somewhere has a valid name. -/
lemma validName_of_find? {fs : FileSystem} {loc : Location} {name : String} {e : Entry}
    (h : fs.find? (loc ++ [name]) = some e) : ValidName name := by
  rcases find?_eq_some_iff.1 h with ⟨hnil, -⟩ | hmem
  · exact absurd hnil (List.concat_ne_nil name loc)
  · obtain ⟨parent, last, heq, hvalid, -⟩ := fs.rooted _ hmem
    obtain ⟨-, hname⟩ := List.append_inj' heq rfl
    cases hname
    exact hvalid

/-- The directory above something that stands, stands. -/
lemma Stands.dropLast {fs : FileSystem} {loc : Location} (h : fs.Stands loc) :
    fs.Stands loc.dropLast := by
  obtain ⟨e, he, -⟩ := h
  exact ⟨.directory, find?_dropLast he, nofun⟩

/-- Where an anchor starts stands if the directory does. -/
lemma Stands.startAt {fs : FileSystem} {loc : Location} (h : fs.Stands loc) (a : Anchor) :
    fs.Stands (a.startAt loc) := by
  cases a with
  | relative => exact h
  | root => exact fs.stands_root
  | doubleRoot => exact fs.stands_root

/-- The names to look up in a directory, with what the system finds there. -/
lemma lookAt_eq_ok_iff {fs : FileSystem} {folder : Location} {name : String} {e : Entry} :
    fs.lookAt folder name = .ok e ↔ fs.find? folder = some .directory ∧
      name.utf8ByteSize ≤ maxName ∧ fs.find? (folder ++ [name]) = some e := by
  unfold lookAt
  split
  · simp_all
  · split
    · next hlong => simp [Nat.not_le.2 hlong]
    · next hdir hshort =>
      cases hfind : fs.find? (folder ++ [name]) <;> simp_all

/-- What is seen in a directory is there. -/
lemma find?_of_lookAt {fs : FileSystem} {folder : Location} {name : String} {e : Entry}
    (h : fs.lookAt folder name = .ok e) : fs.find? (folder ++ [name]) = some e :=
  (lookAt_eq_ok_iff.1 h).2.2

/-- Resolution from where something stands ends where something stands, if what is known about
links is of that kind too. -/
lemma canonicalFrom_stands {fs : FileSystem} {nesting : Nat} {fresh : List Location}
    {known : List (Location × Location)} {here loc : Location} {detours : List Detour}
    {names : List String} (h : fs.canonicalFrom nesting fresh known here detours names = .ok loc)
    (hhere : fs.Stands here) (hknown : ∀ x ∈ known, fs.Stands x.2) : fs.Stands loc := by
  fun_induction canonicalFrom fs nesting fresh known here detours names with
  | case1 =>
    cases h
    exact hhere
  | case2 fresh known here detour detours ih =>
    -- where the link leads is known from now on
    refine ih h hhere fun x hx => ?_
    rcases List.mem_cons.1 hx with rfl | hx
    · exact hhere
    · exact hknown x hx
  | case3 _ _ _ _ _ _ _ ih => exact ih h hhere hknown
  | case4 _ _ _ _ _ _ ih => exact ih h hhere.dropLast hknown
  | case5 => cases h
  | case6 => cases h
  | case7 => cases h
  | case8 _ _ _ _ _ _ _ _ _ _ _ _ there hlookup ih =>
    -- a link that has been resolved before
    obtain ⟨before, after, heq, -⟩ := List.lookup_eq_some_iff.1 hlookup
    have hthere := hknown _ (heq ▸ List.mem_append_right _ List.mem_cons_self)
    exact ih h hthere hknown
  | case9 _ _ _ _ _ _ _ _ _ _ _ _ _ _ ih => exact ih h (hhere.startAt _) hknown
  | case10 => cases h
  | case11 _ _ _ _ _ _ _ _ _ _ e hlink hlook ih =>
    exact ih h ⟨e, find?_of_lookAt hlook, fun target he => hlink target he⟩ hknown

/-- At the canonical location of a path something stands. -/
lemma canonical_stands {fs : FileSystem} {nesting : Nat} {cwd loc : Location} {p : Path}
    (h : fs.canonical nesting cwd p = .ok loc) (hcwd : fs.Stands cwd) : fs.Stands loc :=
  canonicalFrom_stands h (hcwd.startAt _) (by simp)

end MakeDeps.FileSystem
