import Mathlib.Data.Set.Function
import MakeDeps.Graph.Basic
import MakeDeps.Proofs.Text.Cut

/-!
# Paths and their extensions

A path is a stem, a dot and an extension if neither separator nor dot comes after that dot, and if a
name stands before it: `splitExtension_eq_some_iff`. Of two paths with the same extension, each is
told by its stem, so the sources of a project have different stems: `hasExtension_iff_append`.
-/

namespace MakeDeps.Path

variable {path stem ext : List Char}

/-- A path has the extension that it is split at. -/
lemma hasExtension_iff {path extension : String} : hasExtension path extension = true ↔
    (splitExtension path.toList).map Prod.snd = some extension.toList := by
  unfold hasExtension
  cases splitExtension path.toList <;> simp

/-- Directories in front of a path make no difference to its extension. -/
lemma map_splitExtension_append (folder cs : List Char) :
    (splitExtension (folder ++ '/' :: cs)).map Prod.snd = (splitExtension cs).map Prod.snd := by
  unfold splitExtension
  rw [Text.cutLast_append]
  cases Text.cutLast '/' cs with
  | none => simp [Function.comp_def]
  | some cut => simp [Function.comp_def]

/-- A component is cut at its last dot, unless this is its first character. -/
lemma splitName_eq_some_iff :
    splitName path = some (stem, ext) ↔ path = stem ++ '.' :: ext ∧ '.' ∉ ext ∧ stem ≠ [] := by
  rw [← and_assoc, ← Text.cutLast_eq_some_iff, splitName]
  cases hcut : Text.cutLast '.' path with
  | none => simp
  | some cut =>
    obtain ⟨l, r⟩ := cut
    cases l with
    | nil =>
      simp only [reduceCtorEq, Option.some.injEq, Prod.mk.injEq, false_iff]
      rintro ⟨⟨rfl, -⟩, hne⟩
      exact hne rfl
    | cons d l =>
      simp only [Option.some.injEq, Prod.mk.injEq, iff_self_and]
      rintro ⟨rfl, -⟩
      exact List.cons_ne_nil d l

/-- Does the text end in a name, and not in a separator? -/
def EndsInName (stem : List Char) : Prop :=
  ∃ front last, stem = front ++ [last] ∧ last ≠ '/'

/-- What ends in a name that is not empty and holds no separator ends in a name. -/
lemma endsInName_append (folder : List Char) {name : List Char} (hne : name ≠ [])
    (hname : '/' ∉ name) : EndsInName (folder ++ name) := by
  refine ⟨folder ++ name.dropLast, name.getLast hne, ?_, ?_⟩
  · rw [List.append_assoc, List.dropLast_concat_getLast hne]
  · intro hlast
    exact hname (hlast ▸ List.getLast_mem hne)

/-- What ends in a separator does not end in a name. -/
lemma not_endsInName (folder : List Char) : ¬ EndsInName (folder ++ ['/']) := by
  rintro ⟨front, last, heq, hlast⟩
  obtain ⟨-, hlist⟩ := List.append_inj' heq rfl
  exact hlast (List.singleton_inj.1 hlist).symm

/-- A path is cut at its last dot if that stands in its last component, after a name. -/
lemma splitExtension_eq_some_iff : splitExtension path = some (stem, ext) ↔
    path = stem ++ '.' :: ext ∧ EndsInName stem ∧ '.' ∉ ext ∧ '/' ∉ ext := by
  unfold splitExtension
  cases hcut : Text.cutLast '/' path with
  | none =>
    have hpath : '/' ∉ path := Text.cutLast_eq_none_iff.1 hcut
    constructor
    · intro h
      obtain ⟨rfl, hdot, hne⟩ := splitName_eq_some_iff.1 h
      rw [List.mem_append, not_or, List.mem_cons, not_or] at hpath
      exact ⟨rfl, endsInName_append [] hne hpath.1, hdot, hpath.2.2⟩
    · rintro ⟨rfl, ⟨front, last, rfl, -⟩, hdot, -⟩
      exact splitName_eq_some_iff.2 ⟨rfl, hdot, by simp⟩
  | some cut =>
    obtain ⟨folder, component⟩ := cut
    obtain ⟨hpath, hcomponent⟩ := Text.eq_of_cutLast hcut
    simp only [Option.map_eq_some_iff, Prod.exists, Prod.mk.injEq]
    constructor
    · rintro ⟨name, ext, hsplit, rfl, rfl⟩
      obtain ⟨rfl, hdot, hne⟩ := splitName_eq_some_iff.1 hsplit
      rw [List.mem_append, not_or, List.mem_cons, not_or] at hcomponent
      refine ⟨?_, ?_, hdot, hcomponent.2.2⟩
      · rw [hpath, List.append_assoc, List.cons_append]
      · rw [List.append_cons]
        exact endsInName_append _ hne hcomponent.1
    · rintro ⟨heq, hname, hdot, hsep⟩
      rw [hpath] at heq
      rcases List.append_eq_append_iff.1 heq with ⟨rest, rfl, hrest⟩ | ⟨rest, rfl, hrest⟩
      · -- the stem goes on after the last separator
        cases rest with
        | nil => cases hrest
        | cons c name =>
          cases hrest
          refine ⟨name, ext, splitName_eq_some_iff.2 ⟨rfl, hdot, ?_⟩, rfl, rfl⟩
          rintro rfl
          exact not_endsInName folder hname
      · -- the last separator would be in the extension
        have hmem : '/' ∈ '.' :: ext := by
          rw [hrest]
          exact List.mem_append_right _ List.mem_cons_self
        rcases List.mem_cons.1 hmem with hdot | hmem
        · cases hdot
        · exact absurd hmem hsep

/-- Having an extension and what is left without it are two views of the same cut. -/
lemma splitExtension_toList_iff {path stem extension : String} :
    splitExtension path.toList = some (stem.toList, extension.toList) ↔
      hasExtension path extension = true ∧ stripExtension path = stem := by
  rw [hasExtension_iff, stripExtension]
  cases splitExtension path.toList with
  | none => simp
  | some cut => simp [Prod.ext_iff, and_comm, ← String.toList_inj]

/-- Without a dot, a path has no extension to lose. -/
lemma stripExtension_eq_self {path : String} (h : '.' ∉ path.toList) :
    stripExtension path = path := by
  unfold stripExtension
  split
  · next stem ext hsplit =>
    rw [eq_of_splitExtension hsplit] at h
    exact absurd (List.mem_append_right stem List.mem_cons_self) h
  · rfl

/-- A path that is put together from a stem and an extension has it. -/
lemma hasExtension_of_append {path extension : String}
    (h : stripExtension path ++ "." ++ extension = path) : hasExtension path extension = true := by
  unfold stripExtension at h
  cases hsplit : splitExtension path.toList with
  | none =>
    rw [hsplit] at h
    have hlength := congrArg (fun s => s.toList.length) h
    simp at hlength
  | some cut =>
    obtain ⟨stem, ext⟩ := cut
    rw [hsplit] at h
    have hlist := congrArg String.toList h
    rw [eq_of_splitExtension hsplit] at hlist
    rw [hasExtension_iff, hsplit]
    simpa using hlist.symm

/-- A path has an extension exactly if what is left without it, a dot and the extension make up the
path. So paths with the same extension, and the sources of a project, are told apart by what is left
of them. What is left ends in a name, and neither a dot nor a separator is in the extension; each
path that is put together in this way has the extension. -/
theorem hasExtension_iff_append (extension : String) :
    (∀ path, hasExtension path extension = true ↔
      stripExtension path ++ "." ++ extension = path) ∧
    Set.InjOn stripExtension {path | hasExtension path extension = true} ∧
    (∀ g : Graph, Set.InjOn stripExtension {source | source ∈ g.sources extension}) ∧
    ∀ path stem, hasExtension path extension = true ∧ stripExtension path = stem ↔
      path = stem ++ "." ++ extension ∧ EndsInName stem.toList ∧
        '.' ∉ extension.toList ∧ '/' ∉ extension.toList := by
  have hparts : ∀ path stem, hasExtension path extension = true ∧ stripExtension path = stem ↔
      path = stem ++ "." ++ extension ∧ EndsInName stem.toList ∧
        '.' ∉ extension.toList ∧ '/' ∉ extension.toList := by
    intro path stem
    rw [← splitExtension_toList_iff, splitExtension_eq_some_iff, ← String.toList_inj]
    simp
  have happend : ∀ path, hasExtension path extension = true ↔
      stripExtension path ++ "." ++ extension = path :=
    fun path => ⟨fun h => ((hparts path _).1 ⟨h, rfl⟩).1.symm, hasExtension_of_append⟩
  have hinj : Set.InjOn stripExtension {path | hasExtension path extension = true} := by
    intro path hpath other hother heq
    rw [← (happend path).1 hpath, ← (happend other).1 hother, heq]
  refine ⟨happend, hinj, ?_, hparts⟩
  intro g
  refine hinj.mono fun source hsource => ?_
  exact (List.mem_filter.1 (Text.mem_sorted.1 hsource)).2

/-- The dot of a hidden name starts no extension, and of several dots the last one does. -/
example : stripExtension "a.b/.c" = "a.b/.c" ∧ stripExtension "a.b/.x..c" = "a.b/.x." := by
  decide +kernel

end MakeDeps.Path
