import Mathlib.Data.List.Induction
import MakeDeps.FileSystem.Walk
import MakeDeps.Path.Lemmas
import MakeDeps.Proofs.FileSystem.Canonical

/-!
# Following paths without links

Where something stands, its location is the way there: `follow_names`. So the path of a canonical
location leads to that location and to no other, unless its text is too long (`locate_stands`), and
this stays so below a path that may lead through links itself (`locate_below`).
-/

namespace MakeDeps

/-- A valid name is a part of a path. -/
lemma ValidName.isPart {name : String} (h : ValidName name) : Path.IsPart name :=
  ⟨h.1, h.2.1, h.2.2.2.1⟩

namespace Path

/-- A text of names consists of separators and of what the names consist of. -/
lemma mem_intercalate {parts : List String} {c : Char} (hc : c ≠ '/') :
    c ∈ ("/".intercalate parts).toList ↔ ∃ part ∈ parts, c ∈ part.toList := by
  induction parts with
  | nil => simp
  | cons part parts ih =>
    cases parts with
    | nil => simp
    | cons next parts =>
      rw [String.toList_intercalate] at ih ⊢
      rw [List.map_cons, List.map_cons, List.intercalate_cons_cons, ← List.map_cons]
      rw [List.mem_append, List.mem_append, ih]
      simp [hc]

/-- The characters of an anchored path, separators apart, are those of its names. -/
lemma mem_text_root {parts : List String} {c : Char} (hc : c ≠ '/') :
    c ∈ (Path.text ⟨.root, parts⟩).toList ↔ ∃ part ∈ parts, c ∈ part.toList := by
  rw [text, if_neg (by simp [here]), String.toList_append, List.mem_append, mem_intercalate hc]
  simp [Anchor.text, hc]

end Path

namespace FileSystem

variable {fs : FileSystem} {loc here : Location} {names : List String} {e : Entry}

/-- Above everything that is there, there is a directory. -/
lemma find?_above (h : fs.find? (loc ++ names) = some e) (hne : names ≠ []) :
    fs.find? loc = some .directory := by
  induction names using List.reverseRecOn generalizing e with
  | nil => exact absurd rfl hne
  | append_singleton names name ih =>
    rw [← List.append_assoc] at h
    have hparent := find?_dropLast h
    rw [List.dropLast_concat] at hparent
    cases names with
    | nil => simpa using hparent
    | cons _ _ => exact ih hparent (by simp)

/-- Locations consist of valid names. -/
lemma validName_of_mem (h : fs.find? loc = some e) : ∀ name ∈ loc, ValidName name := by
  intro name hname
  obtain ⟨before, after, rfl⟩ := List.append_of_mem hname
  rw [← List.singleton_append, ← List.append_assoc] at h
  cases after with
  | nil =>
    rw [List.append_nil] at h
    exact validName_of_find? h
  | cons next after => exact validName_of_find? (find?_above h (by simp))

/-- Above what stands, everything stands. -/
lemma Stands.above (h : fs.Stands (loc ++ names)) : fs.Stands loc := by
  obtain ⟨e, hfind, hlink⟩ := h
  cases names with
  | nil =>
    rw [List.append_nil] at hfind
    exact ⟨e, hfind, hlink⟩
  | cons name names => exact ⟨.directory, find?_above hfind (by simp), nofun⟩

/-- What stands has valid names. -/
lemma Stands.validName (h : fs.Stands loc) : ∀ name ∈ loc, ValidName name := by
  obtain ⟨e, hfind, -⟩ := h
  exact validName_of_mem hfind

/-- Names that lead to where something stands are followed one by one, before others are. -/
lemma follow_names_append (h : fs.Stands (here ++ names)) (links : Nat) (rest : List String) :
    fs.follow false links here (names ++ rest) = fs.follow false links (here ++ names) rest := by
  induction names generalizing here with
  | nil => simp
  | cons name names ih =>
    obtain ⟨e, hfind, hlink⟩ := h
    have hdir : fs.find? here = some .directory := find?_above hfind (by simp)
    obtain ⟨hne, hdot, hdots, -, -, hsize⟩ := validName_of_mem hfind name (by simp)
    have hnext : fs.Stands ((here ++ [name]) ++ names) := by
      rw [List.append_assoc]
      exact ⟨e, hfind, hlink⟩
    obtain ⟨e', hfind', hlink'⟩ := hnext.above
    have hrest := ih hnext
    rw [List.append_assoc, List.singleton_append] at hrest
    have hshort : ¬maxName < name.utf8ByteSize := Nat.not_lt.2 hsize
    rw [List.cons_append, follow]
    simp only [hdir, hne, hdot, hdots, hshort, hfind', ne_eq, not_true_eq_false, if_false, or_self,
      Bool.false_eq_true, false_and]
    cases e' with
    | link target => exact absurd rfl (hlink' target)
    | file content => exact hrest
    | directory => exact hrest

/-- Names that lead to where something stands lead there. -/
lemma follow_names (h : fs.Stands (here ++ names)) (links : Nat) :
    fs.follow false links here names = .ok (.taken (here ++ names)) := by
  have hfollow := follow_names_append h links []
  rwa [List.append_nil, follow] at hfollow

/-- A link is followed from the directory that it stands in. -/
lemma follow_link {name target : String} (h : fs.find? (here ++ [name]) = some (.link target))
    (links : Nat) (rest : List String) : fs.follow false (links + 1) here (name :: rest) =
      fs.follow false links ((Anchor.ofChars target.toList).startAt here)
        (Path.names target ++ rest) := by
  have hdir : fs.find? here = some .directory := find?_above h (by simp)
  obtain ⟨hne, hdot, hdots, -, -, hsize⟩ := validName_of_find? h
  have hshort : ¬maxName < name.utf8ByteSize := Nat.not_lt.2 hsize
  rw [follow]
  simp only [hdir, hne, hdot, hdots, hshort, h, ne_eq, not_true_eq_false, if_false, or_self,
    Bool.false_eq_true, false_and]

/-- The names behind a path are followed from where the path leads. -/
lemma follow_append {links : Nat} {xs : List String}
    (h : fs.follow false links here xs = .ok (.taken loc)) :
    ∃ left, ∀ ys, fs.follow false links here (xs ++ ys) = fs.follow false left loc ys := by
  fun_induction follow fs false links here xs with
  | case1 links here =>
    cases h
    exact ⟨links, fun ys => by rw [List.nil_append]⟩
  | case3 links here name rest hdir hskip ih =>
    obtain ⟨left, hleft⟩ := ih h
    refine ⟨left, fun ys => ?_⟩
    rw [List.cons_append, follow, if_neg hdir, if_pos hskip, hleft]
  | case4 links here rest hdir hskip ih =>
    obtain ⟨left, hleft⟩ := ih h
    refine ⟨left, fun ys => ?_⟩
    rw [List.cons_append, follow, if_neg hdir, if_neg hskip, if_pos rfl, hleft]
  | case10 here name rest hdir hskip hup _ hshort target hlink links start ih =>
    obtain ⟨left, hleft⟩ := ih h
    refine ⟨left, fun ys => ?_⟩
    rw [List.cons_append, follow, if_neg hdir, if_neg hskip, if_neg hup, if_neg (by simp),
      if_neg hshort, ← hleft, List.append_assoc]
    simp only [hlink]
    rfl
  | case11 links here name rest hdir hskip hup _ hshort e hentry hfind ih =>
    obtain ⟨left, hleft⟩ := ih h
    refine ⟨left, fun ys => ?_⟩
    rw [List.cons_append, follow, if_neg hdir, if_neg hskip, if_neg hup, if_neg (by simp),
      if_neg hshort, ← hleft]
    cases e with
    | link target => exact absurd rfl (hentry target)
    | file content => simp only [hfind]
    | directory => simp only [hfind]
  -- in the other cases the way ends early, so it does not lead to a place that is taken
  | _ => simp_all

/-- A path is located by following its parts, if it has no NUL and is not too long. -/
lemma locate_eq_ok_iff {cwd : Location} {creating : Bool} {p : Path} {place : Place} :
    fs.locate cwd creating p = .ok place ↔ '\x00' ∉ p.text.toList ∧ isTooLong p = false ∧
      fs.follow creating maxLinks (p.anchor.startAt cwd) p.parts = .ok place := by
  unfold locate
  split
  · simp_all
  · split
    · simp_all
    · cases fs.follow creating maxLinks (p.anchor.startAt cwd) p.parts <;>
        simp_all [Except.mapError]

/-- A directory is opened if its path is located at one. -/
lemma openDirectory_eq_ok_iff {cwd : Location} {p : Path} :
    fs.openDirectory cwd p = .ok loc ↔
      fs.locate cwd false p = .ok (.taken loc) ∧ fs.find? loc = some .directory := by
  constructor
  · intro h
    unfold openDirectory at h
    split at h
    · cases h
    · cases h
    · next hlocate =>
      split at h
      · next hfind =>
        cases h
        exact ⟨hlocate, hfind⟩
      · cases h
      · cases h
  · rintro ⟨hlocate, hfind⟩
    simp [openDirectory, hlocate, hfind]

/-- A path is a directory if it is located at one. -/
lemma isDirectory_eq_true_iff {cwd : Location} {p : Path} : fs.isDirectory cwd p = .ok true ↔
    ∃ loc, fs.locate cwd false p = .ok (.taken loc) ∧ fs.find? loc = some .directory := by
  unfold isDirectory
  split <;> simp_all

/-- Below a directory, what stands at the end of names is what these names lead to from any path of
the directory, as long as the text of the whole path is not too long. -/
lemma locate_below {root : List String} (hroot : fs.openDirectory [] ⟨.root, root⟩ = .ok loc)
    (h : fs.Stands (loc ++ names)) : fs.locate [] false ⟨.root, root ++ names⟩ =
      if isTooLong ⟨.root, root ++ names⟩ then .error (.refused .nameTooLong)
      else .ok (.taken (loc ++ names)) := by
  obtain ⟨hnul, -, hfollow⟩ := locate_eq_ok_iff.1 (openDirectory_eq_ok_iff.1 hroot).1
  obtain ⟨left, hleft⟩ := follow_append hfollow
  have hclean : '\x00' ∉ (Path.text ⟨.root, root ++ names⟩).toList := by
    rw [Path.mem_text_root (by decide)] at hnul ⊢
    rintro ⟨part, hpart, hmem⟩
    rcases List.mem_append.1 hpart with hpart | hpart
    · exact hnul ⟨part, hpart, hmem⟩
    · obtain ⟨-, -, -, -, hname, -⟩ := h.validName part (List.mem_append_right _ hpart)
      exact hname hmem
  rw [locate, if_neg hclean]
  split
  · rfl
  · dsimp only
    rw [hleft names, follow_names h]
    rfl

/-- A path below an opened directory is located by its names where these stand. -/
lemma eq_of_locate_below {root : List String} {other : Location}
    (hroot : fs.openDirectory [] ⟨.root, root⟩ = .ok loc) (h : fs.Stands (loc ++ names))
    (hlocate : fs.locate [] false ⟨.root, root ++ names⟩ = .ok (.taken other)) :
    other = loc ++ names := by
  rw [locate_below hroot h] at hlocate
  split at hlocate
  · cases hlocate
  · cases hlocate
    rfl

/-- The path of a canonical location leads there, unless its text is too long. -/
lemma locate_stands (h : fs.Stands loc) : fs.locate [] false ⟨.root, loc⟩ =
    if isTooLong ⟨.root, loc⟩ then .error (.refused .nameTooLong) else .ok (.taken loc) := by
  have hroot : fs.openDirectory [] ⟨.root, []⟩ = .ok [] := by
    refine openDirectory_eq_ok_iff.2 ⟨locate_eq_ok_iff.2 ⟨?_, by decide +kernel, ?_⟩, rfl⟩
    · rw [Path.mem_text_root (by decide)]
      simp
    · simp [follow, Anchor.startAt]
  have hbelow : fs.Stands ([] ++ loc) := h
  simpa only [List.nil_append] using locate_below hroot hbelow

/-- The path of a location that stands is located there. -/
lemma eq_of_locate_stands {other : Location} (h : fs.Stands loc)
    (hlocate : fs.locate [] false ⟨.root, loc⟩ = .ok (.taken other)) : other = loc := by
  rw [locate_stands h] at hlocate
  split at hlocate
  · cases hlocate
  · cases hlocate
    rfl

end FileSystem

end MakeDeps
