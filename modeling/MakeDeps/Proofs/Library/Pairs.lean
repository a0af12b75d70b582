import Mathlib.Data.List.Nodup
import MakeDeps.Proofs.Library
import MakeDeps.Proofs.Search.Failure
import MakeDeps.Proofs.Text.Cut
import MakeDeps.Proofs.Text.Trim

/-!
# Pairs of headers and libraries

A text is a pair if something is left on both sides of its first equals sign when blanks are taken
off: `readPair_eq_ok_iff`. Of several pairs for a header the last one counts. A flag in front of the
library is dropped after that, and only once, so what is left may be blank or start with a flag
again; such a library, and no other, is read differently when it is written back: `readPairs_table`.
-/

namespace MakeDeps
open Text

variable {spec header given library : String} {specs : List String}
  {pairs : List (String × String)}

namespace LibraryTable

/-- A table has one entry for each header. -/
lemma nodup_ofList (pairs : List (String × String)) :
    ((ofList pairs).entries.map Prod.fst).Nodup := by
  induction pairs using List.reverseRecOn with
  | nil => exact List.nodup_nil
  | append_singleton pairs pair ih =>
    rw [entries_ofList_concat, List.map_append, List.map_singleton, List.nodup_append]
    refine ⟨ih.sublist (List.filter_sublist.map _), List.nodup_singleton _, ?_⟩
    rintro other hother _ hpair rfl
    obtain ⟨entry, hentry, hname⟩ := List.mem_map.1 hother
    rw [List.mem_singleton.1 hpair] at hname
    exact absurd hname (by simpa using (List.mem_filter.1 hentry).2)

/-- Pairs for different headers are the entries of their table, in their order. -/
lemma entries_ofList (h : (pairs.map Prod.fst).Nodup) : (ofList pairs).entries = pairs := by
  induction pairs using List.reverseRecOn with
  | nil => rfl
  | append_singleton pairs pair ih =>
    rw [List.map_append, List.nodup_append] at h
    obtain ⟨hpairs, -, hdisjoint⟩ := h
    rw [entries_ofList_concat, ih hpairs, List.filter_eq_self.2]
    intro entry hentry
    simpa using hdisjoint entry.1 (List.mem_map_of_mem hentry) pair.1 (by simp)

/-- A table made of pairs has the last library given for a header. -/
lemma mem_entries_ofList : (header, library) ∈ (ofList pairs).entries ↔
    pairs.reverse.lookup header = some library := by
  have hlibrary : (ofList pairs).library? header = pairs.reverse.lookup header := by
    rw [ofList, library?_extend]
    exact Option.or_none
  rw [← hlibrary]
  exact (FileSystem.lookup_eq_some_iff_mem (nodup_ofList pairs)).symm

end LibraryTable

/-- The text names the header before its first equals sign and the library, perhaps with its flag,
after it. There may be blanks around both. -/
def Names (spec header given : String) : Prop :=
  ∃ left right, spec.toList = left ++ '=' :: right ∧ '=' ∉ left ∧
    header.toList = trim left ∧ given.toList = trim right ∧ header ≠ "" ∧ given ≠ ""

/-- The text has no equals sign, or nothing but blanks in front of the first one or behind it. -/
def IsNoPair (spec : String) : Prop :=
  '=' ∉ spec.toList ∨ ∃ left right, spec.toList = left ++ '=' :: right ∧ '=' ∉ left ∧
    ((∀ c ∈ left, isBlank c = true) ∨ ∀ c ∈ right, isBlank c = true)

/-- What the last of the texts that name the header gives for it. -/
def NamedLast (specs : List String) (header given : String) : Prop :=
  ∃ before spec after, specs = before ++ spec :: after ∧ Names spec header given ∧
    ∀ other ∈ after, ∀ given', ¬ Names other header given'

/-- The header can be given as it is: it is not blank, no blanks have to be taken off, and it has no
equals sign. -/
structure IsHeader (header : String) : Prop where
  ne_empty : header ≠ ""
  trimmed : trim header.toList = header.toList
  noSign : '=' ∉ header.toList

/-- The library can be given as it is: it is not blank, and neither blanks nor a flag have to be
taken off. -/
structure IsBare (library : String) : Prop where
  ne_empty : library ≠ ""
  trimmed : trim library.toList = library.toList
  noFlag : ¬ libraryFlag.toList <+: library.toList

/-- A pair as a text. -/
def pairText (pair : String × String) : String :=
  pair.1 ++ "=" ++ pair.2

/-- What stands around the first equals sign decides what a text names. -/
lemma names_iff {left right : List Char} (heq : spec.toList = left ++ '=' :: right)
    (hleft : '=' ∉ left) : Names spec header given ↔
      header.toList = trim left ∧ given.toList = trim right ∧ header ≠ "" ∧ given ≠ "" := by
  constructor
  · rintro ⟨left', right', heq', hleft', hnames⟩
    obtain ⟨rfl, rfl⟩ := eq_of_append_cons hleft hleft' (heq ▸ heq')
    exact hnames
  · exact fun hnames => ⟨left, right, heq, hleft, hnames⟩

/-- A text that names a header and a library is read, without the flag of the library. -/
lemma readPair_eq_ok_iff : readPair spec = .ok (header, library) ↔
    ∃ given, Names spec header given ∧ library = withoutStart libraryFlag given := by
  unfold readPair
  cases hcut : cutFirst '=' spec.toList with
  | none =>
    simp only [reduceCtorEq, false_iff]
    rintro ⟨given, ⟨left, right, heq, hleft, -⟩, -⟩
    rw [heq, cutFirst_append_cons hleft] at hcut
    cases hcut
  | some cut =>
    obtain ⟨left, right⟩ := cut
    obtain ⟨heq, hleft⟩ := eq_of_cutFirst hcut
    simp only [names_iff heq hleft]
    split
    · next hblank =>
      simp only [reduceCtorEq, false_iff]
      rintro ⟨given, ⟨hheader, hgiven, hne, hne'⟩, -⟩
      rw [← hheader, ← hgiven] at hblank
      simp [hne, hne'] at hblank
    · next hblank =>
      rw [not_or] at hblank
      simp only [Except.ok.injEq, Prod.mk.injEq]
      constructor
      · rintro ⟨rfl, rfl⟩
        exact ⟨_, ⟨String.toList_ofList, String.toList_ofList, by simpa using hblank⟩, rfl⟩
      · rintro ⟨given, ⟨hheader, hgiven, -⟩, rfl⟩
        rw [← hheader, ← hgiven, String.ofList_toList, String.ofList_toList]
        exact ⟨rfl, rfl⟩

/-- A text is no pair if it names no library for a header. -/
lemma isNoPair_iff : IsNoPair spec ↔ ∀ header given, ¬ Names spec header given := by
  constructor
  · rintro hno header given ⟨left, right, heq, hleft, hheader, hgiven, hne, hne'⟩
    rcases hno with hmem | ⟨left', right', heq', hleft', hblank⟩
    · rw [heq] at hmem
      simp at hmem
    · obtain ⟨rfl, rfl⟩ := eq_of_append_cons hleft hleft' (heq ▸ heq')
      rw [← trim_eq_nil_iff, ← trim_eq_nil_iff, ← hheader, ← hgiven] at hblank
      simp [hne, hne'] at hblank
  · intro hnames
    by_cases hmem : '=' ∈ spec.toList
    · obtain ⟨left, right, heq, hleft⟩ := List.eq_append_cons_of_mem hmem
      refine .inr ⟨left, right, heq, hleft, ?_⟩
      rw [← trim_eq_nil_iff, ← trim_eq_nil_iff]
      by_contra hblank
      rw [not_or] at hblank
      refine hnames (String.ofList (trim left)) (String.ofList (trim right))
        ⟨left, right, heq, hleft, String.toList_ofList, String.toList_ofList, ?_⟩
      simpa using hblank
    · exact .inl hmem

/-- A text that is no pair is given back. -/
lemma readPair_eq_error_iff {text : String} :
    readPair spec = .error text ↔ IsNoPair spec ∧ text = spec := by
  have herror : ∀ text, readPair spec = .error text → text = spec := by
    intro text h
    unfold readPair at h
    split at h
    · cases h
      rfl
    · dsimp only at h
      split at h
      · cases h
        rfl
      · cases h
  constructor
  · intro h
    refine ⟨isNoPair_iff.2 fun header given hnames => ?_, herror _ h⟩
    rw [readPair_eq_ok_iff.2 ⟨given, hnames, rfl⟩] at h
    cases h
  · rintro ⟨hno, rfl⟩
    cases hread : readPair text with
    | error text' => rw [herror _ hread]
    | ok pair =>
      obtain ⟨given, hnames, -⟩ := readPair_eq_ok_iff.1 hread
      exact absurd hnames (isNoPair_iff.1 hno _ _)

/-- A text is read as a pair unless it is none. -/
lemma exists_readPair_iff : (∃ pair, readPair spec = .ok pair) ↔ ¬ IsNoPair spec := by
  cases hread : readPair spec with
  | error text => simp [(readPair_eq_error_iff.1 hread).1]
  | ok pair =>
    have hpair : ¬ IsNoPair spec := fun hno => by
      rw [readPair_eq_error_iff.2 ⟨hno, rfl⟩] at hread
      cases hread
    simp [hpair]

/-- The first text that is no pair is given back. -/
lemma readPairs_eq_error_iff {text : String} : readPairs specs = .error text ↔
    ∃ before after, specs = before ++ text :: after ∧ (∀ spec ∈ before, ¬ IsNoPair spec) ∧
      IsNoPair text := by
  rw [readPairs, Search.mapM_eq_error_iff, Search.findSome?_failure?_eq_some_iff]
  simp only [exists_readPair_iff, readPair_eq_error_iff]
  constructor
  · rintro ⟨before, spec, after, heq, hbefore, hno, rfl⟩
    exact ⟨before, after, heq, hbefore, hno⟩
  · rintro ⟨before, after, heq, hbefore, hno⟩
    exact ⟨before, text, after, heq, hbefore, hno, rfl⟩

/-- What is named last is named last by the rest, or first and by none of the rest. -/
lemma namedLast_cons : NamedLast (spec :: specs) header given ↔
    NamedLast specs header given ∨
      Names spec header given ∧ ∀ other ∈ specs, ∀ given', ¬ Names other header given' := by
  constructor
  · rintro ⟨before, last, after, heq, hnames, hafter⟩
    cases before with
    | nil =>
      cases heq
      exact .inr ⟨hnames, hafter⟩
    | cons _ before =>
      cases heq
      exact .inl ⟨before, last, after, rfl, hnames, hafter⟩
  · rintro (⟨before, last, after, rfl, hnames, hafter⟩ | ⟨hnames, hafter⟩)
    · exact ⟨spec :: before, last, after, rfl, hnames, hafter⟩
    · exact ⟨[], spec, specs, rfl, hnames, hafter⟩

/-- What is named last is named by some text. -/
lemma NamedLast.exists_names (h : NamedLast specs header given) :
    ∃ spec ∈ specs, Names spec header given := by
  obtain ⟨before, spec, after, rfl, hnames, -⟩ := h
  exact ⟨spec, by simp, hnames⟩

/-- One pair gives its library for its header, and nothing else. -/
lemma lookup_singleton_iff {pair : String × String} :
    [pair].lookup header = some library ↔ pair = (header, library) := by
  have hnodup : ([pair].map Prod.fst).Nodup := List.nodup_singleton _
  rw [FileSystem.lookup_eq_some_iff_mem hnodup, List.mem_singleton, eq_comm]

/-- The last text for a header decides what is found for it. -/
lemma lookup_reverse_iff
    (h : List.Forall₂ (fun spec pair => readPair spec = .ok pair) specs pairs) :
    pairs.reverse.lookup header = some library ↔
      ∃ given, NamedLast specs header given ∧ library = withoutStart libraryFlag given := by
  induction h generalizing library with
  | nil =>
    simp only [List.reverse_nil, List.lookup_nil, reduceCtorEq, false_iff]
    rintro ⟨given, hlast, -⟩
    obtain ⟨spec, hmem, -⟩ := hlast.exists_names
    cases hmem
  | @cons spec pair specs pairs hspec hspecs ih =>
    rw [List.reverse_cons, List.lookup_append]
    simp only [namedLast_cons]
    cases hlookup : pairs.reverse.lookup header with
    | some found =>
      obtain ⟨given, hlast, hfound⟩ := ih.1 hlookup
      rw [Option.some_or, ← hlookup, ih]
      constructor
      · rintro ⟨given, hlast, heq⟩
        exact ⟨given, .inl hlast, heq⟩
      · rintro ⟨given', hlast' | ⟨-, hnone⟩, heq⟩
        · exact ⟨given', hlast', heq⟩
        · obtain ⟨other, hmem, hnames⟩ := hlast.exists_names
          exact absurd hnames (hnone other hmem given)
    | none =>
      have hnone : ∀ other ∈ specs, ∀ given', ¬ Names other header given' := by
        intro other hother given' hnames
        have hmem := (Resolver.mem_iff_of_forall₂ hspecs).2
          ⟨other, hother, readPair_eq_ok_iff.2 ⟨given', hnames, rfl⟩⟩
        have hne := List.lookup_eq_none_iff.1 hlookup _ (List.mem_reverse.2 hmem)
        simp at hne
      have hpair : [pair].lookup header = some library ↔ readPair spec = .ok (header, library) := by
        rw [hspec, lookup_singleton_iff, Except.ok.injEq]
      rw [Option.none_or, hpair, readPair_eq_ok_iff]
      constructor
      · rintro ⟨given, hnames, heq⟩
        exact ⟨given, .inr ⟨hnames, hnone⟩, heq⟩
      · rintro ⟨given, hlast | ⟨hnames, -⟩, heq⟩
        · obtain ⟨other, hmem, hnames⟩ := hlast.exists_names
          exact absurd hnames (hnone other hmem given)
        · exact ⟨given, hnames, heq⟩

/-- Libraries are named for headers. -/
lemma Names.isHeader (h : Names spec header given) : IsHeader header := by
  obtain ⟨left, right, -, hleft, hheader, -, hne, -⟩ := h
  refine ⟨hne, ?_, ?_⟩
  · rw [hheader, trim_trim]
  · rw [hheader]
    exact mt mem_of_mem_trim hleft

/-- Without a flag in front, what is given is a library that can be given as it is. -/
lemma Names.isBare (h : Names spec header given) (hflag : ¬ libraryFlag.toList <+: given.toList) :
    IsBare given := by
  obtain ⟨left, right, -, -, -, hgiven, -, hne⟩ := h
  refine ⟨hne, ?_, hflag⟩
  rw [hgiven, trim_trim]

/-- The text of a pair names its library, trimmed, for its header, unless nothing is left of it. -/
lemma names_pairText_iff {name : String} (h : IsHeader header) :
    Names (pairText (header, library)) name given ↔
      name = header ∧ given.toList = trim library.toList ∧ given ≠ "" := by
  have htext : (pairText (header, library)).toList = header.toList ++ '=' :: library.toList := by
    simp [pairText]
  rw [names_iff htext h.noSign, h.trimmed, String.toList_inj]
  constructor
  · rintro ⟨rfl, hgiven, -, hne⟩
    exact ⟨rfl, hgiven, hne⟩
  · rintro ⟨rfl, hgiven, hne⟩
    exact ⟨rfl, hgiven, h.ne_empty, hne⟩

/-- Written as a text, a pair is read back exactly if its library can be given as it is. -/
lemma readPair_pairText_iff (h : IsHeader header) :
    readPair (pairText (header, library)) = .ok (header, library) ↔ IsBare library := by
  rw [readPair_eq_ok_iff]
  simp only [names_pairText_iff h, true_and]
  constructor
  · rintro ⟨given, ⟨hgiven, hne⟩, heq⟩
    rcases eq_or_eq_append libraryFlag given with ⟨hflag, hsame⟩ | hflag
    · rw [hsame] at heq
      subst heq
      exact ⟨hne, hgiven.symm, hflag⟩
    · -- what is left of the library by trimming would be longer than the library
      have hlength := (trim_isInfix library.toList).length_le
      rw [← hgiven, hflag, ← heq, String.toList_append, List.length_append] at hlength
      have htwo : libraryFlag.toList.length = 2 := by decide
      omega
  · intro hbare
    exact ⟨library, ⟨hbare.trimmed.symm, hbare.ne_empty⟩,
      (withoutStart_eq_self hbare.noFlag).symm⟩

namespace LibraryTable

/-- Written as texts, the entries of a table are read back exactly if their libraries can be given
as they are. -/
lemma readPairs_pairText_iff (hheaders : ∀ entry ∈ (ofList pairs).entries, IsHeader entry.1) :
    (readPairs ((ofList pairs).entries.map pairText)).map ofList = .ok (ofList pairs) ↔
      ∀ entry ∈ (ofList pairs).entries, IsBare entry.2 := by
  have hread : ∀ found, readPairs ((ofList pairs).entries.map pairText) = .ok found ↔
      List.Forall₂ (fun entry pair => readPair (pairText entry) = .ok pair)
        (ofList pairs).entries found := by
    intro found
    rw [readPairs, Resolver.mapM_eq_ok_iff, List.forall₂_map_left_iff]
  constructor
  · intro h
    cases hfound : readPairs ((ofList pairs).entries.map pairText) with
    | error text =>
      rw [hfound] at h
      cases h
    | ok found =>
      rw [hfound] at h
      have htable : ofList found = ofList pairs := Except.ok.inj h
      have hpairs := (List.forall₂_and_left _ _).2 ⟨hheaders, (hread found).1 hfound⟩
      -- the headers are the same, so they are all different and nothing is replaced
      have hnames : (ofList pairs).entries.map Prod.fst = found.map Prod.fst := by
        rw [← List.forall₂_eq_eq_eq, List.forall₂_map_left_iff, List.forall₂_map_right_iff]
        refine hpairs.imp fun entry pair ⟨hheader, hpair⟩ => ?_
        obtain ⟨given, hgiven, -⟩ := readPair_eq_ok_iff.1 hpair
        exact ((names_pairText_iff hheader).1 hgiven).1.symm
      have hentries : found = (ofList pairs).entries := by
        rw [← htable, entries_ofList (hnames ▸ nodup_ofList pairs)]
      rw [hentries, List.forall₂_same] at hpairs
      intro entry hentry
      obtain ⟨hheader, hpair⟩ := hpairs entry hentry
      exact (readPair_pairText_iff hheader).1 hpair
  · intro h
    have hself : readPairs ((ofList pairs).entries.map pairText) = .ok (ofList pairs).entries := by
      rw [hread, List.forall₂_same]
      exact fun entry hentry => (readPair_pairText_iff (hheaders entry hentry)).2 (h entry hentry)
    rw [hself]
    exact congrArg Except.ok (extend_ofList empty pairs)

end LibraryTable

/-- Pairs are read up to the first text that is none, which is quoted. If all texts are pairs, they
make a table in which each header has the library of the last text that names it, without its flag,
and no other header is in the table. Headers and libraries have nothing to be taken off, apart from
libraries that were given with a flag. The texts of the entries are read as the same table exactly
if all libraries can be given as they are. -/
theorem readPairs_table (specs : List String) :
    (∀ message, (readPairs specs).mapError badPairMessage = .error message ↔
      ∃ before spec after, specs = before ++ spec :: after ∧
        (∀ other ∈ before, ¬ IsNoPair other) ∧ IsNoPair spec ∧
        message = "expected HEADER=LIB, got " ++ quote spec) ∧
    ((∃ pairs, readPairs specs = .ok pairs) ↔ ∀ spec ∈ specs, ¬ IsNoPair spec) ∧
    ∀ pairs, readPairs specs = .ok pairs →
      ((LibraryTable.ofList pairs).entries.map Prod.fst).Nodup ∧
      (∀ header library, (header, library) ∈ (LibraryTable.ofList pairs).entries ↔
        ∃ given, NamedLast specs header given ∧ library = withoutStart libraryFlag given) ∧
      (∀ entry ∈ (LibraryTable.ofList pairs).entries, IsHeader entry.1 ∧
        (IsBare entry.2 ∨ NamedLast specs entry.1 (libraryFlag ++ entry.2))) ∧
      ((readPairs ((LibraryTable.ofList pairs).entries.map pairText)).map LibraryTable.ofList =
          .ok (LibraryTable.ofList pairs) ↔
        ∀ entry ∈ (LibraryTable.ofList pairs).entries, IsBare entry.2) := by
  refine ⟨fun message => ?_, ?_, fun pairs hpairs => ?_⟩
  · have herror : (readPairs specs).mapError badPairMessage = .error message ↔
        ∃ spec, readPairs specs = .error spec ∧ message = badPairMessage spec := by
      cases readPairs specs <;> simp [Except.mapError, eq_comm]
    rw [herror]
    constructor
    · rintro ⟨spec, hspec, rfl⟩
      obtain ⟨before, after, heq, hbefore, hno⟩ := readPairs_eq_error_iff.1 hspec
      exact ⟨before, spec, after, heq, hbefore, hno, rfl⟩
    · rintro ⟨before, spec, after, heq, hbefore, hno, rfl⟩
      exact ⟨spec, readPairs_eq_error_iff.2 ⟨before, after, heq, hbefore, hno⟩, rfl⟩
  · rw [readPairs, Search.exists_mapM_eq_ok_iff]
    simp only [exists_readPair_iff]
  · have hentry : ∀ header library, (header, library) ∈ (LibraryTable.ofList pairs).entries ↔
        ∃ given, NamedLast specs header given ∧ library = withoutStart libraryFlag given :=
      fun header library => LibraryTable.mem_entries_ofList.trans
        (lookup_reverse_iff (Resolver.mapM_eq_ok_iff.1 hpairs))
    have hclean : ∀ entry ∈ (LibraryTable.ofList pairs).entries, IsHeader entry.1 ∧
        (IsBare entry.2 ∨ NamedLast specs entry.1 (libraryFlag ++ entry.2)) := by
      rintro ⟨header, library⟩ hmem
      obtain ⟨given, hlast, heq⟩ := (hentry header library).1 hmem
      obtain ⟨spec, -, hnames⟩ := hlast.exists_names
      refine ⟨hnames.isHeader, ?_⟩
      rcases eq_or_eq_append libraryFlag given with ⟨hflag, hsame⟩ | hflag
      · left
        rw [heq, hsame]
        exact hnames.isBare hflag
      · right
        rw [← heq] at hflag
        exact hflag ▸ hlast
    exact ⟨LibraryTable.nodup_ofList pairs, hentry, hclean,
      LibraryTable.readPairs_pairText_iff fun entry hmem => (hclean entry hmem).1⟩

/-- A flag without a name is a pair, and what is left of it is no library. Of two flags one is left,
and so are blanks after a flag; if they are given again, less is left. -/
theorem readPairs_flags :
    readPairs ["a=-l"] = .ok [("a", "")] ∧
    readPairs ["a=-l-lfoo"] = .ok [("a", "-lfoo")] ∧
    readPairs [pairText ("a", "-lfoo")] = .ok [("a", "foo")] ∧
    readPairs ["a=-l foo"] = .ok [("a", " foo")] ∧
    readPairs [pairText ("a", " foo")] = .ok [("a", "foo")] := by
  decide +kernel

end MakeDeps
