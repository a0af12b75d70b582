import MakeDeps.Path.Basic

/-!
# Paths and their texts

A path whose names are such as reading keeps is determined by its text (`ofString_text`), and by
its last name and the path before it (`parent_join_name`).
-/

namespace MakeDeps.Path

/-- Is this a name that a path keeps when it is read? -/
def IsPart (name : String) : Prop :=
  name ≠ "" ∧ name ≠ "." ∧ '/' ∉ name.toList

/-- A text of names does not start with a separator. -/
theorem intercalate_head {parts : List String} (h : ∀ part ∈ parts, IsPart part) (cs : List Char) :
    ("/".intercalate parts).toList ≠ '/' :: cs := by
  cases parts with
  | nil => simp
  | cons part rest =>
    obtain ⟨hne, -, hsep⟩ := h part (by simp)
    rw [String.toList_intercalate]
    cases hpart : part.toList with
    | nil => exact absurd (String.toList_eq_nil_iff.1 hpart) hne
    | cons c tail =>
      rw [hpart] at hsep
      have hc : c ≠ '/' := fun h => hsep (h ▸ List.mem_cons_self)
      cases rest with
      | nil => simp [hpart, hc]
      | cons _ _ => simp [hpart, hc]

/-- The names in a text that is made of names. -/
theorem names_intercalate {parts : List String} (hne : parts ≠ [])
    (h : ∀ part ∈ parts, '/' ∉ part.toList) : names ("/".intercalate parts) = parts := by
  have hsplit : (['/'].intercalate (parts.map String.toList)).splitOn '/' =
      parts.map String.toList :=
    List.splitOn_intercalate '/' (by simpa using h) (by simpa using hne)
  rw [names, String.toList_intercalate, show "/".toList = ['/'] from rfl, hsplit]
  simp

/-- A separator in front puts an empty name before the others. -/
theorem names_cons_separator (s : String) : names ("/" ++ s) = "" :: names s := by
  have hsplit : ([] ++ '/' :: s.toList).splitOn '/' = [] :: s.toList.splitOn '/' :=
    List.splitOn_append_cons_self_of_not_mem (by simp) s.toList
  rw [List.nil_append] at hsplit
  simp [names, hsplit]

/-- Reading keeps the names in a text that is made of them. -/
theorem filter_names {parts : List String} (h : ∀ part ∈ parts, IsPart part) :
    ((names ("/".intercalate parts)).filter fun name => name ≠ "" ∧ name ≠ ".") = parts := by
  by_cases hne : parts = []
  · subst hne
    decide +kernel
  · rw [names_intercalate hne fun part hp => (h part hp).2.2]
    exact List.filter_eq_self.2 fun part hp => by simp [(h part hp).1, (h part hp).2.1]

/-- The anchor is read off a text that starts with it and goes on with a name. -/
theorem ofChars_text {cs : List Char} (a : Anchor) (h : ∀ tail, cs ≠ '/' :: tail) :
    Anchor.ofChars (a.text.toList ++ cs) = a := by
  cases cs with
  | nil => cases a <;> rfl
  | cons c cs =>
    have hc : c ≠ '/' := fun hc => h cs (by rw [hc])
    cases a
    · show Anchor.ofChars (c :: cs) = _
      unfold Anchor.ofChars
      split <;> grind
    · show Anchor.ofChars ('/' :: c :: cs) = _
      unfold Anchor.ofChars
      split <;> grind
    · show Anchor.ofChars ('/' :: '/' :: c :: cs) = _
      unfold Anchor.ofChars
      split <;> grind

/-- A path of names reads back from its text. -/
theorem ofString_text {p : Path} (h : ∀ part ∈ p.parts, IsPart part) : ofString p.text = p := by
  obtain ⟨anchor, parts⟩ := p
  dsimp only at h
  by_cases hh : (⟨anchor, parts⟩ : Path) = here
  · rw [hh]
    decide +kernel
  · have hparts : ((names (anchor.text ++ "/".intercalate parts)).filter
        fun name => name ≠ "" ∧ name ≠ ".") = parts := by
      cases anchor with
      | relative => simpa [Anchor.text] using filter_names h
      | root => simpa [Anchor.text, names_cons_separator] using filter_names h
      | doubleRoot =>
        rw [show Anchor.text .doubleRoot = "/" ++ "/" from rfl, String.append_assoc,
          names_cons_separator, names_cons_separator]
        simpa using filter_names h
    unfold text ofString
    rw [if_neg hh, hparts, String.toList_append, ofChars_text anchor (intercalate_head h)]

/-- So its anchor can be read off its text. -/
theorem ofChars_toList_text {p : Path} (h : ∀ part ∈ p.parts, IsPart part) :
    Anchor.ofChars p.text.toList = p.anchor :=
  congrArg anchor (ofString_text h)

/-- A path has a text, if only a dot. -/
theorem text_ne_empty {p : Path} (h : ∀ part ∈ p.parts, IsPart part) : p.text ≠ "" := by
  intro hempty
  have hhere : p = here := by
    rw [← ofString_text h, hempty]
    decide +kernel
  rw [hhere] at hempty
  revert hempty
  decide

/-- Without an anchor, a path is written as its names. -/
theorem text_relative {parts : List String} (hne : parts ≠ []) :
    text ⟨.relative, parts⟩ = "/".intercalate parts := by
  have hhere : (⟨.relative, parts⟩ : Path) ≠ here := fun heq => hne (Path.mk.inj heq).2
  simp [text, if_neg hhere, Anchor.text]

/-- Then its names can be read off its text. -/
theorem names_text_relative {parts : List String} (hne : parts ≠ [])
    (h : ∀ part ∈ parts, '/' ∉ part.toList) : names (text ⟨.relative, parts⟩) = parts := by
  rw [text_relative hne, names_intercalate hne h]

/-- Joining the last name to the rest gives the path back. -/
theorem parent_join_name (p : Path) (h : p.parts ≠ []) :
    p.parent.join ⟨.relative, [p.name]⟩ = p := by
  obtain ⟨anchor, parts⟩ := p
  have hlast : parts.getLast? = some (parts.getLast h) := List.getLast?_eq_some_getLast h
  simp [parent, join, name, hlast, List.dropLast_concat_getLast h]

end MakeDeps.Path
