import MakeDeps.FileSystem.Lemmas
import MakeDeps.Proofs.FileSystem.Follow

/-!
# Writing a file

A file is written where its path leads to, at the end of all links. Nothing else in the tree
changes (`find?_write`), and from then on the path leads to what was written (`read_write`).
-/

namespace MakeDeps

/-- Where the place is. -/
def Place.location : Place → Location
  | taken loc => loc
  | free folder name => folder ++ [name]

namespace Path

/-- A part of a split text holds characters of the text, and no separator. -/
lemma mem_of_mem_splitOn {separator c : Char} {cs part : List Char}
    (hpart : part ∈ cs.splitOn separator) (hc : c ∈ part) : c ≠ separator ∧ c ∈ cs := by
  induction cs generalizing part with
  | nil =>
    rw [List.splitOn_nil, List.mem_singleton] at hpart
    rw [hpart] at hc
    cases hc
  | cons d cs ih =>
    rw [List.splitOn_cons_eq_if_modifyHead] at hpart
    split at hpart
    · rcases List.mem_cons.1 hpart with rfl | hpart
      · cases hc
      · obtain ⟨hne, hmem⟩ := ih hpart hc
        exact ⟨hne, List.mem_cons_of_mem _ hmem⟩
    · next hd =>
      have hrest : ∀ part ∈ cs.splitOn separator, c ∈ part → c ≠ separator ∧ c ∈ d :: cs := by
        intro part hpart hc
        obtain ⟨hne, hmem⟩ := ih hpart hc
        exact ⟨hne, List.mem_cons_of_mem _ hmem⟩
      cases hsplit : cs.splitOn separator with
      | nil => exact absurd hsplit (List.splitOn_ne_nil separator cs)
      | cons first others =>
        rw [hsplit] at hpart hrest
        rcases List.mem_cons.1 hpart with rfl | hpart
        · rcases List.mem_cons.1 hc with rfl | hc
          · exact ⟨by simpa using hd, List.mem_cons_self⟩
          · exact hrest first List.mem_cons_self hc
        · exact hrest part (List.mem_cons_of_mem _ hpart) hc

/-- The names of a text are made of its characters, separators apart. -/
lemma mem_of_mem_names {s name : String} {c : Char} (hname : name ∈ names s)
    (hc : c ∈ name.toList) : c ≠ '/' ∧ c ∈ s.toList := by
  obtain ⟨part, hpart, rfl⟩ := List.mem_map.1 hname
  rw [String.toList_ofList] at hc
  exact mem_of_mem_splitOn hpart hc

/-- The parts of a path that has been read are parts of paths. -/
lemma isPart_of_mem_parts {s name : String} (h : name ∈ (ofString s).parts) : IsPart name := by
  obtain ⟨hname, hkept⟩ := List.mem_filter.1 h
  obtain ⟨hne, hdot⟩ := decide_eq_true_iff.1 hkept
  exact ⟨hne, hdot, fun hc => (mem_of_mem_names hname hc).1 rfl⟩

/-- The characters of a part are in the text of the path. -/
lemma mem_text_of_mem_part {p : Path} {part : String} {c : Char} (hpart : part ∈ p.parts)
    (hmem : c ∈ part.toList) (hc : c ≠ '/') : c ∈ p.text.toList := by
  have hhere : p ≠ here := by
    rintro rfl
    cases hpart
  rw [text, if_neg hhere, String.toList_append, List.mem_append]
  exact .inr ((mem_intercalate hc).2 ⟨part, hpart, hmem⟩)

end Path

namespace FileSystem

variable {fs fs' : FileSystem} {cwd here loc : Location} {names : List String} {p : Path}
  {content : List UInt8}

/-- Nothing is in the characters of the names that the system does not take for a name. -/
def AreClean (names : List String) : Prop :=
  ∀ name ∈ names, '/' ∉ name.toList ∧ '\x00' ∉ name.toList

/-- The target of a link has clean names. -/
lemma areClean_names {target : String} (h : fs.find? loc = some (.link target)) :
    AreClean (Path.names target) := by
  rcases find?_eq_some_iff.1 h with ⟨-, hlink⟩ | hmem
  · cases hlink
  · obtain ⟨-, hnul⟩ := fs.valid _ hmem
    intro name hname
    constructor
    · exact fun hc => (Path.mem_of_mem_names hname hc).1 rfl
    · exact fun hc => hnul (Path.mem_of_mem_names hname hc).2

/-- A free place is one for a new entry of a directory. -/
lemma follow_free {creating : Bool} {links : Nat} {folder : Location} {name : String}
    (h : fs.follow creating links here names = .ok (.free folder name)) (hclean : AreClean names) :
    fs.find? folder = some .directory ∧ ValidName name ∧ fs.find? (folder ++ [name]) = none := by
  fun_induction follow fs creating links here names with
  | case3 _ _ _ _ _ _ ih => exact ih h fun name hname => hclean name (List.mem_cons_of_mem _ hname)
  | case4 _ _ _ _ _ ih => exact ih h fun name hname => hclean name (List.mem_cons_of_mem _ hname)
  | case7 _ _ _ _ hdir hskip hup _ hshort hnone _ =>
    cases h
    obtain ⟨hne, hdot⟩ := not_or.1 hskip
    obtain ⟨hseparator, hnul⟩ := hclean name List.mem_cons_self
    exact ⟨not_not.1 hdir, ⟨hne, hdot, hup, hseparator, hnul, Nat.not_lt.1 hshort⟩, hnone⟩
  | case10 _ _ _ _ _ _ _ _ _ hlink _ _ ih =>
    refine ih h fun name hname => ?_
    rcases List.mem_append.1 hname with hname | hname
    · exact areClean_names hlink name hname
    · exact hclean name (List.mem_cons_of_mem _ hname)
  | case11 _ _ _ _ _ _ _ _ _ _ _ _ ih =>
    exact ih h fun name hname => hclean name (List.mem_cons_of_mem _ hname)
  | _ => cases h

/-- The parts of a path that has been located are clean. -/
lemma areClean_parts {creating : Bool} {place : Place}
    (h : fs.locate cwd creating p = .ok place) (hp : ∀ part ∈ p.parts, '/' ∉ part.toList) :
    AreClean p.parts := by
  obtain ⟨hnul, -, -⟩ := locate_eq_ok_iff.1 h
  intro part hpart
  exact ⟨hp part hpart, fun hmem => hnul (Path.mem_text_of_mem_part hpart hmem (by decide))⟩

/-- Below what is no directory there is nothing. -/
lemma find?_below (h : fs.find? loc ≠ some .directory) (hpre : loc <+: here) (hne : here ≠ loc) :
    fs.find? here = none := by
  obtain ⟨names, rfl⟩ := hpre
  cases hfind : fs.find? (loc ++ names) with
  | none => rfl
  | some e =>
    have hnames : names ≠ [] := by
      rintro rfl
      exact hne (List.append_nil loc)
    exact absurd (find?_above hfind hnames) h

/-- Where there is no directory, a file that is placed hides nothing but what was there. -/
lemma find?_place_file {folder : Location} {name : String}
    (hfolder : fs.find? folder = some .directory) (hname : ValidName name)
    (hplace : fs.find? (folder ++ [name]) ≠ some .directory) (other : Location) :
    (fs.place folder name (.file content)).find? other =
      if other = folder ++ [name] then some (.file content) else fs.find? other := by
  have hvalid : (Entry.file content).Valid := trivial
  rw [find?_place ⟨hfolder, hname, hvalid⟩]
  split
  · rfl
  · next hne =>
    split
    · next hpre => exact (find?_below hplace hpre hne).symm
    · rfl

/-- What is written is at the place that the path leads to, where no file or another one was; and
that is all that changes. -/
lemma find?_write (h : fs.write cwd p content = .ok fs')
    (hp : ∀ part ∈ p.parts, '/' ∉ part.toList) :
    ∃ place, fs.locate cwd true p = .ok place ∧
      (fs.find? place.location = none ∨ ∃ old, fs.find? place.location = some (.file old)) ∧
      ∀ loc, fs'.find? loc =
        if loc = place.location then some (.file content) else fs.find? loc := by
  unfold write at h
  split at h
  · cases h
  · next folder name hlocate =>
    cases h
    have hfollow := (locate_eq_ok_iff.1 hlocate).2.2
    obtain ⟨hfolder, hname, hnone⟩ := follow_free hfollow (areClean_parts hlocate hp)
    refine ⟨_, hlocate, .inl hnone, find?_place_file hfolder hname ?_⟩
    rw [hnone]
    exact nofun
  · next loc hlocate =>
    split at h
    · next old hfind =>
      cases h
      obtain rfl | ⟨folder, name, rfl⟩ := List.eq_nil_or_concat loc
      · cases hfind
      · rw [List.concat_eq_append] at hlocate hfind ⊢
        have hfolder := find?_dropLast hfind
        rw [List.dropLast_concat] at hfolder
        refine ⟨_, hlocate, .inr ⟨old, hfind⟩, ?_⟩
        rw [List.dropLast_concat, List.getLastD_concat]
        refine find?_place_file hfolder (validName_of_find? hfind) ?_
        rw [hfind]
        exact nofun
    · cases h

/-- A file that is written leaves what is no file. -/
lemma find?_of_written {place : Place} {e : Entry}
    (hplace : fs.find? place.location = none ∨ ∃ old, fs.find? place.location = some (.file old))
    (hwritten : ∀ loc, fs'.find? loc =
      if loc = place.location then some (.file content) else fs.find? loc)
    (hfind : fs.find? loc = some e) (he : ∀ old, e ≠ .file old) : fs'.find? loc = some e := by
  have hne : loc ≠ place.location := by
    rintro rfl
    rcases hplace with hnone | ⟨old, hold⟩
    · rw [hnone] at hfind
      cases hfind
    · rw [hold] at hfind
      cases hfind
      exact he old rfl
  rw [hwritten, if_neg hne, hfind]

/-- Where a path has led to a place for a file, it leads to that file once it is there, also if the
file is to be written again. -/
lemma follow_written {links : Nat} {place : Place} (again : Bool)
    (h : fs.follow true links here names = .ok place)
    (hplace : fs.find? place.location = none ∨ ∃ old, fs.find? place.location = some (.file old))
    (hwritten : ∀ loc, fs'.find? loc =
      if loc = place.location then some (.file content) else fs.find? loc) :
    fs'.follow again links here names = .ok (.taken place.location) := by
  have hdirectory : ∀ loc, ¬fs.find? loc ≠ some .directory → ¬fs'.find? loc ≠ some .directory :=
    fun loc hdir => not_not.2 (find?_of_written hplace hwritten (not_not.1 hdir) (by simp))
  generalize hcreating : true = creating at h
  fun_induction follow fs creating links here names with
  | case1 =>
    cases h
    rw [follow]
    rfl
  | case3 _ _ _ _ hdir hskip ih =>
    rw [follow, if_neg (hdirectory _ hdir), if_pos hskip]
    exact ih h
  | case4 _ _ _ hdir hskip ih =>
    rw [follow, if_neg (hdirectory _ hdir), if_neg hskip, if_pos rfl]
    exact ih h
  | case7 links here name rest hdir hskip hup _ hshort _ hlast =>
    -- the name that was free is the last one, and the new file has it
    cases h
    obtain ⟨-, rfl⟩ := hlast
    have hfile : fs'.find? (here ++ [name]) = some (.file content) :=
      (hwritten _).trans (if_pos rfl)
    rw [follow, if_neg (hdirectory _ hdir), if_neg hskip, if_neg hup, if_neg (by simp),
      if_neg hshort]
    simp only [hfile]
    rw [follow]
    rfl
  | case10 here name rest hdir hskip hup hslash hshort target hlink links start ih =>
    have hlink' := find?_of_written hplace hwritten hlink (by simp)
    rw [follow, if_neg (hdirectory _ hdir), if_neg hskip, if_neg hup,
      if_neg (fun hlast => hslash ⟨hcreating.symm, hlast.2⟩), if_neg hshort]
    simp only [hlink']
    exact ih h
  | case11 links here name rest hdir hskip hup hslash hshort e hentry hfind ih =>
    have hentry' : ∃ e', fs'.find? (here ++ [name]) = some e' ∧ ∀ target, e' ≠ .link target := by
      rw [hwritten]
      split
      · exact ⟨_, rfl, by simp⟩
      · exact ⟨e, hfind, hentry⟩
    obtain ⟨e', hfind', hlink'⟩ := hentry'
    rw [follow, if_neg (hdirectory _ hdir), if_neg hskip, if_neg hup,
      if_neg (fun hlast => hslash ⟨hcreating.symm, hlast.2⟩), if_neg hshort]
    cases e' with
    | link target => exact absurd rfl (hlink' target)
    | file _ => simpa only [hfind'] using ih h
    | directory => simpa only [hfind'] using ih h
  | _ => cases h

/-- Where a file has been written, the path is located at it. -/
lemma locate_written {place : Place} (again : Bool) (h : fs.locate cwd true p = .ok place)
    (hplace : fs.find? place.location = none ∨ ∃ old, fs.find? place.location = some (.file old))
    (hwritten : ∀ loc, fs'.find? loc =
      if loc = place.location then some (.file content) else fs.find? loc) :
    fs'.locate cwd again p = .ok (.taken place.location) := by
  obtain ⟨hnul, hshort, hfollow⟩ := locate_eq_ok_iff.1 h
  exact locate_eq_ok_iff.2 ⟨hnul, hshort, follow_written again hfollow hplace hwritten⟩

/-- What has been written is what the path leads to. -/
lemma read_write (h : fs.write cwd p content = .ok fs')
    (hp : ∀ part ∈ p.parts, '/' ∉ part.toList) : fs'.read cwd p = .ok content := by
  obtain ⟨place, hlocate, hplace, hwritten⟩ := find?_write h hp
  have hfile : fs'.find? place.location = some (.file content) :=
    (hwritten _).trans (if_pos rfl)
  rw [read, locate_written false hlocate hplace hwritten]
  simp only [hfile]

/-- What has been written can be written again, and nothing changes. -/
lemma exists_write_again (h : fs.write cwd p content = .ok fs')
    (hp : ∀ part ∈ p.parts, '/' ∉ part.toList) :
    ∃ fs'', fs'.write cwd p content = .ok fs'' ∧ ∀ loc, fs''.find? loc = fs'.find? loc := by
  obtain ⟨place, hlocate, hplace, hwritten⟩ := find?_write h hp
  have hfile : fs'.find? place.location = some (.file content) :=
    (hwritten _).trans (if_pos rfl)
  have hlocate' := locate_written true hlocate hplace hwritten
  have hwrite : fs'.write cwd p content = .ok (fs'.place place.location.dropLast
      (place.location.getLastD "") (.file content)) := by
    rw [write, hlocate']
    simp only [hfile]
  refine ⟨_, hwrite, fun loc => ?_⟩
  obtain ⟨place', hlocate'', -, hwritten'⟩ := find?_write hwrite hp
  cases hlocate'.symm.trans hlocate''
  rw [hwritten']
  split
  · next heq =>
    rw [heq]
    exact hfile.symm
  · rfl

end FileSystem

end MakeDeps
