import MakeDeps.Text.Cut

/-!
# Extensions

The extension of a path is what follows the last dot of its last component, provided something
stands before that dot. `splitExtension` is the one place that looks for it.
-/

namespace MakeDeps.Path

/-- The stem and the extension of a component. A dot at the very beginning starts no extension. -/
def splitName (component : List Char) : Option (List Char × List Char) :=
  match Text.cutLast '.' component with
  | some ([], _) => none
  | cut => cut

/-- The path without its extension, and the extension, if there is one. -/
def splitExtension (path : List Char) : Option (List Char × List Char) :=
  match Text.cutLast '/' path with
  | some (folder, component) =>
    (splitName component).map fun (stem, ext) => (folder ++ '/' :: stem, ext)
  | none => splitName path

/-- Does the path end in a dot and this extension? -/
def hasExtension (path extension : String) : Bool :=
  match splitExtension path.toList with
  | some (_, ext) => ext == extension.toList
  | none => false

/-- The path without its extension, or all of it if it has none. -/
def stripExtension (path : String) : String :=
  match splitExtension path.toList with
  | some (stem, _) => String.ofList stem
  | none => path

/-- An extension and what stands before it make up the path. -/
theorem eq_of_splitExtension {path stem ext : List Char}
    (h : splitExtension path = some (stem, ext)) : path = stem ++ '.' :: ext := by
  have name : ∀ {c s e : List Char}, splitName c = some (s, e) → c = s ++ '.' :: e := by
    intro c s e hs
    unfold splitName at hs
    split at hs
    · cases hs
    · exact (Text.eq_of_cutLast hs).1
  unfold splitExtension at h
  split at h
  · next folder component hcut =>
    obtain ⟨⟨s, e⟩, hs, heq⟩ := Option.map_eq_some_iff.1 h
    obtain ⟨rfl, rfl⟩ := Prod.mk.inj heq
    rw [(Text.eq_of_cutLast hcut).1, name hs]
    simp
  · exact name h

end MakeDeps.Path
