import Mathlib.Data.String.Basic
import MakeDeps.Proofs.FileSystem.Shape

/-!
# Spellings of a directory

A directory has many spellings. What the system comes to by a text it also comes to by the path that
is read from this text, although empty names and `.` have gone (`IsSpelling.openDirectory`). And
however a directory is spelled, its path settles at its one location (`settled_eq`), unless there is
a link on the way that is missed (`MissesLink`).
-/

namespace MakeDeps

namespace Path

variable {s : String}

/-- Leaving parts out of a text leaves characters out. -/
lemma sublist_intercalate {c : Char} {xs ys : List (List Char)} (h : xs.Sublist ys) :
    ([c].intercalate xs).Sublist ([c].intercalate ys) := by
  induction h with
  | slnil => exact .refl _
  | @cons xs ys a h ih =>
    cases ys with
    | nil =>
      rw [List.sublist_nil.1 h]
      exact List.nil_sublist _
    | cons b ys =>
      rw [List.intercalate_cons_cons]
      exact ih.trans (List.sublist_append_right _ _)
  | @cons_cons xs ys a h ih =>
    cases ys with
    | nil => rw [List.sublist_nil.1 h]
    | cons b ys =>
      cases xs with
      | nil =>
        rw [List.intercalate_singleton, List.intercalate_cons_cons, List.append_assoc]
        exact List.sublist_append_left _ _
      | cons a' xs =>
        rw [List.intercalate_cons_cons, List.intercalate_cons_cons]
        exact (List.Sublist.refl _).append ih

/-- The names of a text give it back. -/
lemma intercalate_names (s : String) : "/".intercalate (names s) = s := by
  have hnames : (names s).map String.toList = s.toList.splitOn '/' := by
    simp [names, Function.comp_def]
  rw [← String.toList_inj, String.toList_intercalate, hnames]
  exact List.intercalate_splitOn '/'

/-- Some of the names in a text make a part of the text. -/
lemma sublist_of_names {parts : List String} (h : parts.Sublist (names s)) :
    ("/".intercalate parts).toList.Sublist s.toList := by
  conv_rhs => rw [← intercalate_names s]
  rw [String.toList_intercalate, String.toList_intercalate]
  exact sublist_intercalate (h.map String.toList)

/-- A text starts with its anchor. -/
lemma exists_eq_anchor_append (s : String) :
    ∃ rest, s = (Anchor.ofChars s.toList).text ++ rest := by
  simp only [← String.toList_inj, String.toList_append]
  generalize s.toList = cs
  unfold Anchor.ofChars
  split
  · next cs => exact ⟨String.ofList ('/' :: '/' :: cs), by simp [Anchor.text]⟩
  · next cs _ => exact ⟨String.ofList cs, by simp [Anchor.text]⟩
  · next cs _ _ => exact ⟨String.ofList cs, by simp [Anchor.text]⟩
  · exact ⟨String.ofList cs, by simp [Anchor.text]⟩

/-- The anchor of a text says nothing about its names. -/
lemma parts_anchor_append (a : Anchor) (s : String) :
    ((names (a.text ++ s)).filter fun name => name ≠ "" ∧ name ≠ ".") =
      (names s).filter fun name => name ≠ "" ∧ name ≠ "." := by
  cases a with
  | relative => simp [Anchor.text]
  | root => simp [Anchor.text, names_cons_separator]
  | doubleRoot =>
    rw [show Anchor.text .doubleRoot = "/" ++ "/" from rfl, String.append_assoc,
      names_cons_separator, names_cons_separator]
    simp

/-- A text in which no name is left and that starts nowhere else has a dot. -/
lemma dot_mem_of_ofString_eq (hne : s ≠ "") (h : ofString s = here) :
    '.' ∈ s.toList := by
  obtain ⟨hanchor, hparts⟩ := Path.mk.inj h
  obtain ⟨c, cs, htoList⟩ := List.exists_cons_of_ne_nil (mt String.toList_eq_nil_iff.1 hne)
  have hc : c ≠ '/' := by
    rintro rfl
    rw [htoList] at hanchor
    unfold Anchor.ofChars at hanchor
    split at hanchor <;> simp_all
  have hmem : c ∈ ("/".intercalate (names s)).toList := by
    rw [intercalate_names, htoList]
    exact List.mem_cons_self
  obtain ⟨name, hname, hcname⟩ := (mem_intercalate hc).1 hmem
  have hskip := List.filter_eq_nil_iff.1 hparts name hname
  have hdot : name = "." := by
    by_contra hdot
    have hempty : name ≠ "" := by
      rintro rfl
      simp at hcname
    simp [hempty, hdot] at hskip
  rw [hdot] at hcname
  have hcdot : c = '.' := by simpa using hcname
  rw [htoList, hcdot]
  exact List.mem_cons_self

/-- A path that has been read from a text is written with characters of this text. -/
lemma sublist_text_ofString (hne : s ≠ "") :
    (ofString s).text.toList.Sublist s.toList := by
  unfold text
  split
  · next hhere => exact List.singleton_sublist.2 (dot_mem_of_ofString_eq hne hhere)
  · obtain ⟨rest, hrest⟩ := exists_eq_anchor_append s
    have hparts : (ofString s).parts.Sublist (names rest) := by
      rw [ofString, hrest, parts_anchor_append]
      exact List.filter_sublist
    rw [String.toList_append]
    conv_rhs => rw [hrest, String.toList_append]
    exact (List.Sublist.refl _).append (sublist_of_names hparts)

end Path

namespace FileSystem

variable {fs : FileSystem} {cwd here loc folder : Location} {name target s : String}
  {names : List String} {p : Path}

/-- The text is a spelling of the directory at `loc`: the system comes from it to this directory,
for a process that works at `cwd`. -/
structure IsSpelling (fs : FileSystem) (cwd loc : Location) (s : String) : Prop where
  nonempty : s ≠ ""
  noNul : '\x00' ∉ s.toList
  short : s.utf8ByteSize < maxPath
  leads : fs.follow false maxLinks ((Anchor.ofChars s.toList).startAt cwd) (Path.names s) =
    .ok (.taken loc)
  directory : fs.find? loc = some .directory

/-- If names lead to somewhere, so do the first ones. -/
lemma exists_follow_of_append {links : Nat} {xs ys : List String}
    (h : fs.follow false links here (xs ++ ys) = .ok (.taken loc)) :
    ∃ mid, fs.follow false links here xs = .ok (.taken mid) := by
  fun_induction follow fs false links here xs with
  | case1 links here => exact ⟨here, rfl⟩
  | case3 links here name rest hdir hskip ih =>
    rw [List.cons_append, follow, if_neg hdir, if_pos hskip] at h
    exact ih h
  | case4 links here rest hdir hskip ih =>
    rw [List.cons_append, follow, if_neg hdir, if_neg hskip, if_pos rfl] at h
    exact ih h
  | case10 here name rest hdir hskip hup _ hshort target hlink links start ih =>
    rw [List.cons_append, follow, if_neg hdir, if_neg hskip, if_neg hup, if_neg (by simp),
      if_neg hshort] at h
    simp only [hlink] at h
    rw [← List.append_assoc] at h
    exact ih h
  | case11 links here name rest hdir hskip hup _ hshort e hentry hfind ih =>
    rw [List.cons_append, follow, if_neg hdir, if_neg hskip, if_neg hup, if_neg (by simp),
      if_neg hshort] at h
    cases e with
    | link target => exact absurd rfl (hentry target)
    | file content =>
      simp only [hfind] at h
      exact ih h
    | directory =>
      simp only [hfind] at h
      exact ih h
  -- in the other cases the way ends early, whatever comes after the first names
  | _ =>
    rw [List.cons_append, follow] at h
    grind

/-- Empty names and dots are not needed on the way to a place. -/
lemma follow_filter {links : Nat} (h : fs.follow false links here names = .ok (.taken loc)) :
    fs.follow false links here (names.filter fun name => name ≠ "" ∧ name ≠ ".") =
      .ok (.taken loc) := by
  induction names generalizing links here with
  | nil => exact h
  | cons name rest ih =>
    by_cases hskip : name = "" ∨ name = "."
    · have hrest : fs.follow false links here rest = .ok (.taken loc) := by
        rw [follow, if_pos hskip] at h
        split at h
        · cases h
        · exact h
      rw [List.filter_cons_of_neg (by simpa [or_iff_not_imp_left] using hskip)]
      exact ih hrest
    · rw [List.filter_cons_of_pos (by simpa [not_or] using hskip)]
      rw [← List.singleton_append] at h ⊢
      obtain ⟨mid, hmid⟩ := exists_follow_of_append h
      obtain ⟨left, hleft⟩ := follow_append hmid
      rw [hleft] at h ⊢
      exact ih h

/-- A path is not too long if its text is a part of one that is short enough. -/
lemma isTooLong_of_sublist {p : Path} {s : String} (h : p.text.toList.Sublist s.toList)
    (hshort : s.utf8ByteSize < maxPath) : isTooLong p = false := by
  have hbytes := String.utf8Len_le_of_sublist h
  rw [← String.utf8ByteSize_ofList, ← String.utf8ByteSize_ofList, String.ofList_toList,
    String.ofList_toList] at hbytes
  simp only [isTooLong, decide_eq_false_iff_not]
  omega

/-- A path that has been read from a spelling leads to the same directory. -/
lemma IsSpelling.openDirectory (h : fs.IsSpelling cwd loc s) :
    fs.openDirectory cwd (.ofString s) = .ok loc := by
  have hpart := Path.sublist_text_ofString h.nonempty
  have hshort := isTooLong_of_sublist hpart h.short
  refine openDirectory_eq_ok_iff.2 ⟨locate_eq_ok_iff.2 ⟨?_, hshort, follow_filter h.leads⟩,
    h.directory⟩
  exact fun hnul => h.noNul (hpart.subset hnul)

/-- A path of names is written as a spelling of the directory that it leads to. -/
lemma isSpelling_text (hne : names ≠ []) (hvalid : ∀ name ∈ names, ValidName name)
    (hshort : isTooLong ⟨.relative, names⟩ = false)
    (hleads : fs.follow false maxLinks cwd names = .ok (.taken loc))
    (hdir : fs.find? loc = some .directory) :
    fs.IsSpelling cwd loc (Path.text ⟨.relative, names⟩) := by
  have hpart : ∀ name ∈ names, Path.IsPart name := fun name hname => (hvalid name hname).isPart
  refine ⟨Path.text_ne_empty hpart, ?_, ?_, ?_, hdir⟩
  · rw [Path.text_relative hne, Path.mem_intercalate (by decide)]
    rintro ⟨name, hname, hnul⟩
    obtain ⟨-, -, -, -, hclean, -⟩ := hvalid name hname
    exact hclean hnul
  · simpa [isTooLong] using hshort
  · rw [Path.ofChars_toList_text hpart, Path.names_text_relative hne fun name hname =>
      (hpart name hname).2.2]
    exact hleads

/-- Settling these names from a path comes to a link that the system does not let one look at, since
the path of the link is too long. -/
inductive MissesLink (fs : FileSystem) (cwd : Location) : Path → List String → Prop
  | here {here name rest target} :
    isTooLong (here.child name) = true →
    fs.lookAt (here.locationFrom cwd) name = .ok (.link target) →
    MissesLink fs cwd here (name :: rest)
  | skip {here name rest} :
    name = "" ∨ name = "." → MissesLink fs cwd here rest →
    MissesLink fs cwd here (name :: rest)
  | up {here name rest} :
    name = ".." → MissesLink fs cwd here.up rest → MissesLink fs cwd here (name :: rest)
  | entry {here name rest} :
    ¬(name = "" ∨ name = ".") → name ≠ ".." → fs.linkTarget? cwd here name = none →
    MissesLink fs cwd (here.child name) rest → MissesLink fs cwd here (name :: rest)
  | link {here name rest target} :
    fs.linkTarget? cwd here name = some target →
    MissesLink fs cwd ((Anchor.ofChars target.toList).startAtPath here)
      (Path.names target ++ rest) → MissesLink fs cwd here (name :: rest)

/-- Settling the path misses a link. -/
def Misses (fs : FileSystem) (cwd : Location) (p : Path) : Prop :=
  fs.MissesLink cwd (p.anchor.startAtPath .here) p.parts

/-- Without names no link is missed. -/
@[simp] lemma not_missesLink_nil : ¬fs.MissesLink cwd p [] := by
  rintro ⟨⟩

/-- Where a link is seen, it has a name of its own. -/
lemma lookAt_eq_link (h : fs.lookAt folder name = .ok (.link target)) :
    ¬(name = "" ∨ name = ".") ∧ name ≠ ".." := by
  obtain ⟨hne, hdot, hdots, -⟩ := validName_of_find? (lookAt_eq_ok_iff.1 h).2.2
  exact ⟨not_or.2 ⟨hne, hdot⟩, hdots⟩

/-- How settling goes on with the next name, and whether a link is missed there. -/
lemma missesLink_cons_iff : fs.MissesLink cwd p (name :: names) ↔
    if name = "" ∨ name = "." then fs.MissesLink cwd p names
    else if name = ".." then fs.MissesLink cwd p.up names
    else match fs.linkTarget? cwd p name with
      | some target => fs.MissesLink cwd ((Anchor.ofChars target.toList).startAtPath p)
          (Path.names target ++ names)
      | none => isTooLong (p.child name) = true ∧
          (∃ target, fs.lookAt (p.locationFrom cwd) name = .ok (.link target)) ∨
            fs.MissesLink cwd (p.child name) names := by
  constructor
  · intro h
    cases h with
    | @here _ _ _ target hlong hlook =>
      obtain ⟨hskip, hup⟩ := lookAt_eq_link hlook
      have hnone : fs.linkTarget? cwd p name = none := by
        rw [linkTarget?, if_pos hlong]
      rw [if_neg hskip, if_neg hup, hnone]
      exact .inl ⟨hlong, target, hlook⟩
    | skip hskip hmiss => rwa [if_pos hskip]
    | up hup hmiss =>
      subst hup
      rwa [if_neg (by decide), if_pos rfl]
    | entry hskip hup hnone hmiss =>
      rw [if_neg hskip, if_neg hup, hnone]
      exact .inr hmiss
    | link htarget hmiss =>
      obtain ⟨hskip, hup⟩ := lookAt_eq_link (linkTarget?_eq_some_iff.1 htarget).2
      rwa [if_neg hskip, if_neg hup, htarget]
  · intro h
    split at h
    · next hskip => exact .skip hskip h
    · next hskip =>
      split at h
      · next hup => exact .up hup h
      · next hup =>
        split at h
        · next htarget => exact .link htarget h
        · next hnone =>
          rcases h with ⟨hlong, target, hlook⟩ | hmiss
          · exact .here hlong hlook
          · exact .entry hskip hup hnone hmiss

/-- Names that lead to a directory are settled at its location, unless a link is missed. -/
lemma locationFrom_settleFrom {links : Nat}
    (h : fs.follow false links here names = .ok (.taken loc)) :
    ∀ p : Path, p.locationFrom cwd = here → ¬fs.MissesLink cwd p names →
      (fs.settleFrom cwd links p names).locationFrom cwd = loc := by
  fun_induction follow fs false links here names with
  | case1 links here =>
    intro p hstart _
    cases h
    rwa [settleFrom]
  | case3 links here name rest hdir hskip ih =>
    intro p hstart hseen
    rw [settleFrom, if_pos hskip]
    exact ih h p hstart fun hmiss => hseen (.skip hskip hmiss)
  | case4 links here rest hdir hskip ih =>
    intro p hstart hseen
    rw [settleFrom, if_neg hskip, if_pos rfl]
    refine ih h _ ?_ fun hmiss => hseen (.up rfl hmiss)
    rw [locationFrom_up, hstart]
  | case10 here name rest hdir hskip hup _ hshort target hlink links start ih =>
    intro p hstart hseen
    have hlook : fs.lookAt (p.locationFrom cwd) name = .ok (.link target) := by
      rw [hstart]
      exact lookAt_eq_ok_iff.2 ⟨not_not.1 hdir, Nat.le_of_not_lt hshort, hlink⟩
    have htarget : fs.linkTarget? cwd p name = some target := by
      refine linkTarget?_eq_some_iff.2 ⟨?_, hlook⟩
      rw [← Bool.not_eq_true]
      exact fun hlong => hseen (.here hlong hlook)
    rw [settleFrom, if_neg hskip, if_neg hup]
    simp only [htarget]
    refine ih h _ ?_ fun hmiss => hseen (.link htarget hmiss)
    rw [locationFrom_startAtPath, hstart]
  | case11 links here name rest hdir hskip hup _ hshort e hentry hfind ih =>
    intro p hstart hseen
    have htarget : fs.linkTarget? cwd p name = none := by
      refine Option.eq_none_iff_forall_ne_some.2 fun target htarget => ?_
      have hlink := find?_of_linkTarget htarget
      rw [hstart, hfind] at hlink
      exact hentry target (Option.some.inj hlink)
    rw [settleFrom, if_neg hskip, if_neg hup]
    simp only [htarget]
    refine ih h _ ?_ fun hmiss => hseen (.entry hskip hup htarget hmiss)
    rw [locationFrom_child, if_neg hup, hstart]
  -- in the other cases the names do not lead anywhere
  | _ => simp_all

/-- A path that leads to a directory settles at the location of the directory. -/
lemma settled_eq (h : fs.openDirectory cwd p = .ok loc) (hseen : ¬fs.Misses cwd p) :
    fs.settled cwd p = loc := by
  obtain ⟨-, -, hfollow⟩ := locate_eq_ok_iff.1 (openDirectory_eq_ok_iff.1 h).1
  exact locationFrom_settleFrom hfollow _ (locationFrom_startAtPath _ _) hseen

/-- Names that lead upwards apart, a path is read name by name. -/
lemma locationFrom_append {a : Anchor} {parts : List String} (h : ∀ name ∈ names, name ≠ "..") :
    Path.locationFrom cwd ⟨a, parts ++ names⟩ = Path.locationFrom cwd ⟨a, parts⟩ ++ names := by
  induction names generalizing parts with
  | nil => simp
  | cons name names ih =>
    have hchild : Path.locationFrom cwd ⟨a, parts ++ [name]⟩ =
        Path.locationFrom cwd ⟨a, parts⟩ ++ [name] :=
      (locationFrom_child ⟨a, parts⟩ name).trans (if_neg (h name List.mem_cons_self))
    rw [← List.singleton_append, ← List.append_assoc, ← List.append_assoc, ← hchild]
    exact ih fun next hnext => h next (List.mem_cons_of_mem _ hnext)

/-- Names that lead to where something stands are kept. -/
lemma settleFrom_names_append (h : fs.Stands (p.locationFrom cwd ++ names)) (links : Nat)
    (rest : List String) : fs.settleFrom cwd links p (names ++ rest) =
      fs.settleFrom cwd links ⟨p.anchor, p.parts ++ names⟩ rest := by
  induction names generalizing p with
  | nil => simp
  | cons name names ih =>
    have hnext : fs.Stands ((p.locationFrom cwd ++ [name]) ++ names) := by simpa using h
    obtain ⟨e, hfind, hlink⟩ := hnext.above
    obtain ⟨hne, hdot, hdots, -⟩ := validName_of_find? hfind
    have hnone : fs.linkTarget? cwd p name = none := by
      refine Option.eq_none_iff_forall_ne_some.2 fun target htarget => hlink target ?_
      rw [find?_of_linkTarget htarget] at hfind
      exact (Option.some.inj hfind).symm
    rw [List.cons_append, settleFrom, if_neg (not_or.2 ⟨hne, hdot⟩), if_neg hdots]
    simp only [hnone]
    rw [ih, Path.child, List.append_assoc, List.singleton_append]
    rwa [locationFrom_child, if_neg hdots]

/-- A link is settled by going on from its target. -/
lemma settleFrom_link (h : fs.linkTarget? cwd p name = some target) (links : Nat)
    (rest : List String) : fs.settleFrom cwd (links + 1) p (name :: rest) =
      fs.settleFrom cwd links ((Anchor.ofChars target.toList).startAtPath p)
        (Path.names target ++ rest) := by
  obtain ⟨hskip, hup⟩ := lookAt_eq_link (linkTarget?_eq_some_iff.1 h).2
  rw [settleFrom, if_neg hskip, if_neg hup]
  simp only [h]

end FileSystem

end MakeDeps
