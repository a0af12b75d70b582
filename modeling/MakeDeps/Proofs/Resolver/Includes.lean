import Mathlib.Data.List.Forall2
import MakeDeps.Proofs.FileSystem.Canonical
import MakeDeps.Proofs.Search.Recursion
import MakeDeps.Resolver.Resolve

/-!
# What a file includes

`Includes` says in terms of the text of a file which files it includes, and `Located` lists them
line by line. A scan gives that list without repetitions: `scan_includes_eq_ok_iff`. An include
leads to a place below the root where something stands, so a search cannot leave the files that it
starts out with: `closed_files`.
-/

namespace MakeDeps.Resolver
open Search

variable {r : Resolver} {fs : FileSystem} {file other target : String}

/-- The file has a line that includes the other one. -/
def Includes (r : Resolver) (fs : FileSystem) (file other : String) : Prop :=
  ∃ content target, fs.read [] (r.path file) = .ok content ∧
    .localFile target ∈ Directive.ofContent content ∧ r.locate fs file target = .ok other

/-- The files that the include lines of a file lead to, line by line; no line leads nowhere. -/
def Located (r : Resolver) (fs : FileSystem) (file : String) (found : List String) : Prop :=
  ∃ content, fs.read [] (r.path file) = .ok content ∧
    List.Forall₂ (fun target other => r.locate fs file target = .ok other)
      (localTargets (Directive.ofContent content)) found

/-- The path of the file leads to a regular file. -/
def IsRegular (r : Resolver) (fs : FileSystem) (file : String) : Prop :=
  ∃ loc, fs.locate [] false (r.path file) = .ok (.taken loc) ∧ fs.isFile loc = true

/-- The local targets are those of the local files. -/
lemma mem_localTargets {directives : List Directive} :
    target ∈ localTargets directives ↔ .localFile target ∈ directives := by
  unfold localTargets
  rw [List.mem_filterMap]
  constructor
  · rintro ⟨directive, hmem, heq⟩
    cases directive with
    | localFile _ =>
      cases heq
      exact hmem
    | systemHeader _ => cases heq
  · exact fun hmem => ⟨_, hmem, rfl⟩

/-- A step taken for all items succeeds exactly if it succeeds for each of them. -/
lemma mapM_eq_ok_iff {α β ε : Type} {f : α → Except ε β} {xs : List α} {ys : List β} :
    xs.mapM f = .ok ys ↔ List.Forall₂ (fun x y => f x = .ok y) xs ys := by
  induction xs generalizing ys with
  | nil => cases ys <;> simp [pure, Except.pure]
  | cons x xs ih =>
    rw [List.mapM_cons]
    cases hx : f x with
    | error e => cases ys <;> simp [bind, Except.bind, hx]
    | ok y =>
      cases hxs : xs.mapM f with
      | error e => cases ys <;> simp [bind, Except.bind, hx, ← ih, hxs]
      | ok zs => cases ys <;> simp [bind, Except.bind, pure, Except.pure, hx, ← ih, hxs]

/-- What can be got from the items is the list got from them one by one. -/
lemma mem_iff_of_forall₂ {α β ε : Type} {f : α → Except ε β} {xs : List α} {ys : List β}
    (h : List.Forall₂ (fun x y => f x = .ok y) xs ys) {y : β} :
    y ∈ ys ↔ ∃ x ∈ xs, f x = .ok y := by
  induction h with
  | nil => simp
  | cons hx _ ih => simp [hx, ih, eq_comm]

/-- Where the lines of a file have been located, they say what the file includes. -/
lemma Located.includes_iff {found : List String} (h : r.Located fs file found) :
    r.Includes fs file other ↔ other ∈ found := by
  obtain ⟨content, hread, hfound⟩ := h
  rw [mem_iff_of_forall₂ hfound]
  constructor
  · rintro ⟨content', target, hread', hmem, hloc⟩
    cases hread.symm.trans hread'
    exact ⟨target, mem_localTargets.2 hmem, hloc⟩
  · rintro ⟨target, hmem, hloc⟩
    exact ⟨content, target, hread, mem_localTargets.1 hmem, hloc⟩

/-- A scan gives the located files, each where it comes first. -/
lemma scan_includes_eq_ok_iff {found : List String} :
    (r.scan fs file).includes = .ok found ↔
      ∃ located, r.Located fs file located ∧ found = located.eraseDups := by
  unfold scan Located
  cases hread : fs.read [] (r.path file) with
  | error fault => cases fault <;> simp
  | ok content =>
    simp only [Except.ok.injEq, exists_eq_left', ← mapM_eq_ok_iff]
    cases (localTargets (Directive.ofContent content)).mapM (r.locate fs file) with
    | error e => simp [Except.map]
    | ok located => simp [Except.map, eq_comm]

/-- A file whose lines have been located is a regular file. -/
lemma Located.isRegular {found : List String} (h : r.Located fs file found) :
    r.IsRegular fs file := by
  obtain ⟨content, hread, -⟩ := h
  unfold FileSystem.read at hread
  split at hread
  · cases hread
  · cases hread
  · next loc hlocate =>
    refine ⟨loc, hlocate, ?_⟩
    split at hread
    · next hfind => simp [FileSystem.isFile, hfind]
    · cases hread
    · cases hread

/-- An include leads to a place below the root, where something stands. -/
lemma stands_of_locate (h : r.locate fs file target = .ok other) :
    ∃ names, other = fileName names ∧ fs.Stands (r.root ++ names) := by
  unfold locate at h
  split at h
  · cases h
  · cases h
  · next loc hcanonical =>
    split at h
    · next names hdrop =>
      cases h
      rw [Text.dropStart?_eq_some_iff] at hdrop
      exact ⟨names, rfl, hdrop ▸ FileSystem.canonical_stands hcanonical fs.stands_root⟩
    · cases h

/-- What an include leads to is among the files that a search can meet. -/
lemma mem_files_of_locate (h : r.locate fs file target = .ok other) (sources : List String) :
    other ∈ r.files fs sources := by
  obtain ⟨names, rfl, e, hfind, -⟩ := stands_of_locate h
  refine List.mem_append_right _ (List.mem_map.2 ⟨names, ?_, rfl⟩)
  cases names with
  | nil => exact List.mem_cons_self
  | cons name rest =>
    refine List.mem_cons_of_mem _ (List.mem_filterMap.2 ⟨(r.root ++ name :: rest, e), ?_, ?_⟩)
    · rcases FileSystem.find?_eq_some_iff.1 hfind with ⟨hnil, -⟩ | hmem
      · simp at hnil
      · exact hmem
    · exact Text.dropStart?_eq_some_iff.2 rfl

/-- A search never leaves the files that it starts out with. -/
lemma closed_files (r : Resolver) (fs : FileSystem) (sources : List String) :
    Closed (successors fun file => (r.scan fs file).includes) (r.files fs sources) := by
  intro file _ other hother
  unfold successors at hother
  cases hscan : (r.scan fs file).includes with
  | error e => simp [hscan] at hother
  | ok found =>
    simp only [hscan] at hother
    obtain ⟨located, ⟨content, _, hlocated⟩, rfl⟩ := scan_includes_eq_ok_iff.1 hscan
    obtain ⟨target, -, hloc⟩ := (mem_iff_of_forall₂ hlocated).1 (List.mem_eraseDups.1 hother)
    exact mem_files_of_locate hloc sources

end MakeDeps.Resolver
