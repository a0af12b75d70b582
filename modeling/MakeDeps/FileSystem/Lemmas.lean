import MakeDeps.FileSystem.Basic

/-!
# What the changes of a file system do

A file system is seen through `find?`. A placement shows at its place, hides what was below it, and
leaves everything else as it was (`find?_place`); a removal hides a place and what is below it
(`find?_erase`).
-/

namespace MakeDeps.FileSystem

/-- The entries after a placement: the new one, and those that are not at or below its place. -/
theorem entries_place {fs : FileSystem} {parent : Location} {name : String} {e : Entry}
    (h : fs.find? parent = some .directory ∧ ValidName name ∧ e.Valid) :
    (fs.place parent name e).entries = (parent ++ [name], e) ::
      fs.entries.filter fun x => !(parent ++ [name]).isPrefixOf x.1 := by
  rw [place, dif_pos h]

/-- The test for a location above another one, where it fails. -/
theorem isPrefixOf_eq_false {loc other : Location} (h : ¬loc <+: other) :
    loc.isPrefixOf other = false := by
  rw [Bool.eq_false_iff, ne_eq, List.isPrefixOf_iff_prefix]
  exact h

/-- After a placement there is the new entry at its place, nothing below it, and everything else
as it was. -/
theorem find?_place {fs : FileSystem} {parent : Location} {name : String} {e : Entry}
    (h : fs.find? parent = some .directory ∧ ValidName name ∧ e.Valid) (loc : Location) :
    (fs.place parent name e).find? loc =
      if loc = parent ++ [name] then some e
      else if parent ++ [name] <+: loc then none
      else fs.find? loc := by
  ext e'
  rw [find?_eq_some_iff, entries_place h, List.mem_cons, List.mem_filter]
  by_cases hloc : loc = parent ++ [name]
  · subst hloc
    have hself : (parent ++ [name]).isPrefixOf (parent ++ [name]) = true :=
      List.isPrefixOf_iff_prefix.2 List.prefix_rfl
    rw [if_pos rfl, Option.some.injEq]
    constructor
    · rintro (⟨hnil, -⟩ | heq | ⟨-, hout⟩)
      · exact absurd hnil (List.concat_ne_nil name parent)
      · exact (Prod.mk.inj heq).2.symm
      · rw [hself] at hout
        cases hout
    · rintro rfl
      exact .inr (.inl rfl)
  · by_cases hpre : parent ++ [name] <+: loc
    · have hne : loc ≠ [] := by
        rintro rfl
        simp at hpre
      simp [hloc, hne, hpre, List.isPrefixOf_iff_prefix.2 hpre]
    · simp [hloc, hpre, isPrefixOf_eq_false hpre, find?_eq_some_iff]

/-- After a removal there is nothing at the place and below it, and everything else as it was. -/
theorem find?_erase {fs : FileSystem} {loc : Location} (h : loc ≠ []) (other : Location) :
    (fs.erase loc).find? other = if loc <+: other then none else fs.find? other := by
  ext e
  rw [find?_eq_some_iff, erase, List.mem_filter]
  by_cases hpre : loc <+: other
  · have hne : other ≠ [] := by
      rintro rfl
      exact h (List.prefix_nil.1 hpre)
    simp [hne, hpre, List.isPrefixOf_iff_prefix.2 hpre]
  · simp [hpre, isPrefixOf_eq_false hpre, find?_eq_some_iff]

end MakeDeps.FileSystem
