import MakeDeps.Proofs.FileSystem.Direct

/-!
# Names with a NUL character

Nothing in a tree has a name with a NUL character, and no link leads to one. So a resolution comes
to such a name only if it is among the names that it is asked for (`canonical_ne_nul`), and a path
that the system has accepted is settled without one (`noNul_settled`).
-/

namespace MakeDeps

/-- No name holds a NUL character. -/
def NoNul (names : List String) : Prop :=
  ∀ name ∈ names, '\x00' ∉ name.toList

/-- Names without NUL one behind the other have none. -/
lemma NoNul.append {first second : List String} (h : NoNul first) (hsecond : NoNul second) :
    NoNul (first ++ second) :=
  List.forall_mem_append.2 ⟨h, hsecond⟩

/-- The rest of names without NUL has none. -/
lemma NoNul.tail {name : String} {names : List String} (h : NoNul (name :: names)) :
    NoNul names :=
  fun other hother => h other (List.mem_cons_of_mem _ hother)

namespace FileSystem

variable {fs : FileSystem} {cwd here loc : Location} {names : List String} {p : Path}

/-- The names in the target of a link have no NUL. -/
lemma noNul_target {target : String} (h : fs.find? loc = some (.link target)) :
    NoNul (Path.names target) :=
  fun name hname => (areClean_names h name hname).2

/-- What is found has a location without NUL. -/
lemma noNul_of_find? {e : Entry} (h : fs.find? loc = some e) : NoNul loc := by
  intro name hname
  obtain ⟨-, -, -, -, hnul, -⟩ := validName_of_mem h name hname
  exact hnul

/-- A resolution without a NUL in the names that are left finds none on the way. -/
lemma canonicalFrom_ne_nul {nesting : Nat} {fresh : List Location}
    {known : List (Location × Location)} {detours : List Detour} (hnames : NoNul names)
    (hdetours : ∀ detour ∈ detours, NoNul detour.rest) :
    fs.canonicalFrom nesting fresh known here detours names ≠ .error .nul := by
  fun_induction canonicalFrom fs nesting fresh known here detours names with
  | case1 => simp
  | case2 _ _ _ detour detours ih =>
    refine ih (hdetours detour List.mem_cons_self) fun other hother => ?_
    exact hdetours other (List.mem_cons_of_mem _ hother)
  | case3 _ _ _ _ _ _ _ ih => exact ih hnames.tail hdetours
  | case4 _ _ _ _ _ _ ih => exact ih hnames.tail hdetours
  | case5 _ _ _ _ name _ _ _ hnul => exact absurd hnul (hnames name List.mem_cons_self)
  | case6 => simp
  | case7 => simp
  | case8 _ _ _ _ _ _ _ _ _ _ _ _ _ _ ih => exact ih hnames.tail hdetours
  | case9 _ _ _ _ _ _ _ _ _ _ _ hlook _ _ ih =>
    refine ih (noNul_target (find?_of_lookAt hlook)) fun detour hdetour => ?_
    rcases List.mem_cons.1 hdetour with rfl | hdetour
    · exact hnames.tail
    · exact hdetours detour hdetour
  | case10 => simp
  | case11 _ _ _ _ _ _ _ _ _ _ _ _ _ ih => exact ih hnames.tail hdetours

/-- A path without NUL in its names does not become canonical with a complaint about one. -/
lemma canonical_ne_nul {nesting : Nat} (h : NoNul p.parts) :
    fs.canonical nesting cwd p ≠ .error .nul :=
  canonicalFrom_ne_nul h (by simp)

/-- A path is located with a complaint about a NUL only if it has one. -/
lemma locate_eq_nul {creating : Bool} (h : fs.locate cwd creating p = .error .nul) :
    '\x00' ∈ p.text.toList := by
  unfold locate at h
  split at h
  · next hnul => exact hnul
  · split at h
    · cases h
    · cases hfollow : fs.follow creating maxLinks (p.anchor.startAt cwd) p.parts with
      | ok place =>
        rw [hfollow] at h
        cases h
      | error cause =>
        rw [hfollow] at h
        cases h

/-- A directory is opened with a complaint about a NUL only if its path has one. -/
lemma openDirectory_eq_nul (h : fs.openDirectory cwd p = .error .nul) :
    '\x00' ∈ p.text.toList := by
  unfold openDirectory at h
  split at h
  · next hlocate =>
    cases h
    exact locate_eq_nul hlocate
  · cases h
  · split at h
    · cases h
    · cases h
    · cases h

/-- A file is written with a complaint about a NUL only if its path has one. -/
lemma write_eq_nul {content : List UInt8} (h : fs.write cwd p content = .error .nul) :
    '\x00' ∈ p.text.toList := by
  unfold write at h
  split at h
  · next hlocate =>
    cases h
    exact locate_eq_nul hlocate
  · cases h
  · split at h
    · cases h
    · cases h

/-- The location above one without NUL has none. -/
lemma noNul_dropLast (h : NoNul loc) : NoNul loc.dropLast :=
  fun name hname => h name ((List.dropLast_prefix loc).subset hname)

/-- A path that starts from an anchor leads to where the anchor starts. -/
lemma locationFrom_startAtPath (a : Anchor) (p : Path) :
    (a.startAtPath p).locationFrom cwd = a.startAt (p.locationFrom cwd) := by
  cases a <;> rfl

/-- A child is above the path for two dots, and below it otherwise. -/
lemma locationFrom_child (p : Path) (name : String) : (p.child name).locationFrom cwd =
    if name = ".." then (p.locationFrom cwd).dropLast else p.locationFrom cwd ++ [name] := by
  simp [Path.locationFrom, Path.child]

/-- The directory above is that of the last name but one. -/
lemma locationFrom_up (p : Path) : p.up.locationFrom cwd = (p.locationFrom cwd).dropLast := by
  have hdots : (p.child "..").locationFrom cwd = (p.locationFrom cwd).dropLast := by
    rw [locationFrom_child, if_pos rfl]
  unfold Path.up
  split
  · next name hlast =>
    split
    · exact hdots
    · next hname =>
      have hchild : p.parent.child name = p := by
        obtain ⟨before, hparts⟩ := List.getLast?_eq_some_iff.1 hlast
        obtain ⟨anchor, parts⟩ := p
        simp only at hparts
        simp [Path.parent, Path.child, hparts]
      conv_rhs => rw [← hchild, locationFrom_child, if_neg hname, List.dropLast_concat]
  · next hlast =>
    split
    · exact hdots
    · next hanchor =>
      -- without names the path is that of the root, above which there is nothing
      obtain ⟨anchor, parts⟩ := p
      obtain rfl : parts = [] := List.getLast?_eq_none_iff.1 hlast
      cases anchor <;> simp_all [Path.locationFrom, Anchor.startAt]

/-- A child by a name without NUL has none. -/
lemma noNul_child {name : String} (h : NoNul (p.locationFrom cwd)) (hname : '\x00' ∉ name.toList) :
    NoNul ((p.child name).locationFrom cwd) := by
  rw [locationFrom_child]
  split
  · exact noNul_dropLast h
  · exact h.append (by simpa [NoNul] using hname)

/-- The path above one without NUL has none. -/
lemma noNul_up (h : NoNul (p.locationFrom cwd)) : NoNul (p.up.locationFrom cwd) := by
  rw [locationFrom_up]
  exact noNul_dropLast h

/-- Where a link is read, there is one. -/
lemma find?_of_linkTarget {here : Path} {name target : String}
    (h : fs.linkTarget? cwd here name = some target) :
    fs.find? (here.locationFrom cwd ++ [name]) = some (.link target) := by
  unfold linkTarget? at h
  split at h
  · cases h
  · split at h
    · next hlook =>
      cases h
      exact find?_of_lookAt hlook
    · cases h

/-- Settling a path without NUL leads to one without NUL. -/
lemma noNul_settleFrom {links : Nat} {here : Path} (hhere : NoNul (here.locationFrom cwd))
    (hnames : NoNul names) : NoNul ((fs.settleFrom cwd links here names).locationFrom cwd) := by
  fun_induction settleFrom fs cwd links here names with
  | case1 => exact hhere
  | case2 _ _ _ _ _ ih => exact ih hhere hnames.tail
  | case3 _ _ _ _ ih => exact ih (noNul_up hhere) hnames.tail
  | case4 _ _ name _ _ _ _ ih =>
    exact ih (noNul_child hhere (hnames name List.mem_cons_self)) hnames.tail
  | case5 _ name _ _ _ _ _ ih =>
    exact ih (noNul_child hhere (hnames name List.mem_cons_self)) hnames.tail
  | case6 here name _ _ _ target htarget _ ih =>
    refine ih ?_ ((noNul_target (find?_of_linkTarget htarget)).append hnames.tail)
    cases Anchor.ofChars target.toList with
    | relative => exact hhere
    | root => simp [NoNul, Anchor.startAtPath, Path.locationFrom, Anchor.startAt]
    | doubleRoot => simp [NoNul, Anchor.startAtPath, Path.locationFrom, Anchor.startAt]

/-- A walk that ends where something is has started at a location that is there. -/
lemma noNul_of_follow {creating : Bool} {links : Nat} {e : Entry}
    (h : fs.follow creating links here names = .ok (.taken loc)) (hloc : fs.find? loc = some e) :
    NoNul here := by
  cases names with
  | nil =>
    rw [follow] at h
    cases h
    exact noNul_of_find? hloc
  | cons name rest =>
    rw [follow] at h
    split at h
    · cases h
    · next hdir => exact noNul_of_find? (not_not.1 hdir)

/-- A directory that the system finds at a path settles without a NUL. -/
lemma noNul_settled (h : fs.isDirectory cwd p = .ok true) : NoNul (fs.settled cwd p) := by
  obtain ⟨loc, hlocate, hloc⟩ := isDirectory_eq_true_iff.1 h
  obtain ⟨hnul, -, hfollow⟩ := locate_eq_ok_iff.1 hlocate
  have hparts : NoNul p.parts := fun part hpart hmem =>
    hnul (Path.mem_text_of_mem_part hpart hmem (by decide))
  refine noNul_settleFrom ?_ hparts
  rw [locationFrom_startAtPath]
  exact noNul_of_follow hfollow hloc

end FileSystem

end MakeDeps
