import Mathlib
import MakeDeps.Proofs.Makefile.Rule
import MakeDeps.Proofs.Path.Extension

/-!
# The names that come from a path

A path is plain if none of its characters means anything in a Makefile; what is named after a plain
path is a name, and refers to no variable of its own. The variables of sources are told from all
others by how they end (`variableName_ne`), have no small letters (`isVariableChar_variableName`),
and are told from each other if `check` lets the sources pass (`nodup_variableName`).
-/

namespace MakeDeps.Makefile

/-- A path without its extension has no other characters. -/
lemma mem_of_mem_stripExtension {path : String} {c : Char}
    (h : c ∈ (Path.stripExtension path).toList) : c ∈ path.toList := by
  unfold Path.stripExtension at h
  split at h
  · next stem ext hsplit =>
    rw [Path.eq_of_splitExtension hsplit]
    exact List.mem_append_left _ (by simpa using h)
  · exact h

/-- Nothing but underscores comes into a path where its directories are joined. -/
lemma eq_or_mem_of_mem_flatten {path : String} {c : Char} (h : c ∈ (flatten path).toList) :
    c = '_' ∨ c ∈ path.toList := by
  unfold flatten at h
  rw [String.toList_ofList] at h
  obtain ⟨d, hd, heq⟩ := List.mem_map.1 h
  split at heq
  · exact .inl heq.symm
  · exact .inr (heq ▸ hd)

/-- Characters that mean something to a Makefile or to the shell, besides those that no name has. At
the end stand quotation marks and the null character. -/
def specialChars : List Char :=
  ['$', ';', '|', '&', '\\', '*', '?', '[', '~', '!', '%', '(', ')', '<', '>', '{', '}', '\x22',
    '\x27', '\x60', '\x00']

/-- Does the character mean nothing but itself? -/
def isPlainChar (c : Char) : Bool :=
  isNameChar c && !specialChars.contains c

/-- Is the text free of white space, and of all characters that mean something to a Makefile or to
the shell? -/
def IsPlain (s : String) : Prop :=
  ∀ c ∈ s.toList, isPlainChar c = true

/-- Whether a text is plain can be computed. -/
instance (s : String) : Decidable (IsPlain s) :=
  decidable_of_iff (s.toList.all isPlainChar = true) (by simp [IsPlain])

namespace IsPlain

/-- A plain text has no character that means something. -/
lemma not_mem {s : String} (h : IsPlain s) {c : Char} (hc : isPlainChar c = false) :
    c ∉ s.toList := by
  intro hmem
  rw [h c hmem] at hc
  cases hc

/-- The characters of a plain text may stand in names. -/
lemma isNameChar {s : String} (h : IsPlain s) : ∀ c ∈ s.toList, isNameChar c = true :=
  fun c hc => (Bool.and_eq_true_iff.1 (h c hc)).1

/-- A plain text stands on one line. -/
lemma isSingleLine {s : String} (h : IsPlain s) : IsSingleLine s :=
  h.not_mem (by decide)

/-- A plain text refers to nothing. -/
lemma not_mem_dollar {s : String} (h : IsPlain s) : '$' ∉ s.toList :=
  h.not_mem (by decide)

/-- A plain text may be the name of a target. -/
lemma isName {s : String} (h : IsPlain s) (hne : s ≠ "") : IsName s :=
  ⟨hne, h.isNameChar⟩

/-- A plain text is one word. -/
lemma isWord {s : String} (h : IsPlain s) (hne : s ≠ "") : Text.IsWord s :=
  (h.isName hne).isWord

/-- A path stays plain without its extension. -/
lemma stripExtension {path : String} (h : IsPlain path) : IsPlain (Path.stripExtension path) :=
  fun c hc => h c (mem_of_mem_stripExtension hc)

/-- A path stays plain as one word. -/
lemma flatten {path : String} (h : IsPlain path) : IsPlain (flatten path) := by
  intro c hc
  rcases eq_or_mem_of_mem_flatten hc with rfl | hc
  · decide
  · exact h c hc

end IsPlain

/-- A path with an extension has a dot. -/
lemma mem_dot_of_hasExtension {path extension : String} (h : Path.hasExtension path extension) :
    '.' ∈ path.toList := by
  rw [Path.eq_of_splitExtension (Path.splitExtension_toList_iff.2 ⟨h, rfl⟩)]
  simp

/-- Something stands before the extension of a path. -/
lemma stripExtension_ne {path extension : String} (h : Path.hasExtension path extension) :
    Path.stripExtension path ≠ "" := by
  have hsplit := Path.splitExtension_toList_iff.2 ⟨h, rfl⟩
  obtain ⟨-, ⟨front, last, hname, -⟩, -⟩ := Path.splitExtension_eq_some_iff.1 hsplit
  intro hempty
  rw [hempty] at hname
  simp at hname

/-- Characters of words are letters, digits and the underscore. -/
lemma isWordChar_iff {c : Char} : isWordChar c = true ↔
    (65 ≤ c.toNat ∧ c.toNat ≤ 90) ∨ (97 ≤ c.toNat ∧ c.toNat ≤ 122) ∨
      (48 ≤ c.toNat ∧ c.toNat ≤ 57) ∨ c.toNat = 95 := by
  have hval : ∀ d : Char, c = d ↔ c.toNat = d.toNat := fun d => Char.toNat_inj.symm
  simp [isWordChar, Char.isAlphanum, Char.isAlpha, Char.isUpper, Char.isLower, Char.isDigit,
    UInt32.le_iff_toNat_le, hval, or_assoc]

/-- Is the character a capital letter, a digit or an underscore? -/
def IsVariableChar (c : Char) : Prop :=
  ('A' ≤ c ∧ c ≤ 'Z') ∨ ('0' ≤ c ∧ c ≤ '9') ∨ c = '_'

/-- Whether a character may be in a variable can be computed. -/
instance (c : Char) : Decidable (IsVariableChar c) :=
  inferInstanceAs (Decidable (_ ∨ _ ∨ _))

/-- Characters of variables are capital letters, digits and the underscore. -/
lemma isVariableChar_iff {c : Char} : IsVariableChar c ↔
    (65 ≤ c.toNat ∧ c.toNat ≤ 90) ∨ (48 ≤ c.toNat ∧ c.toNat ≤ 57) ∨ c.toNat = 95 := by
  simp [IsVariableChar, Char.le_def, UInt32.le_iff_toNat_le, ← Char.toNat_inj]

/-- Of the letters that may stand in a name, only the capital ones are left. -/
lemma isVariableChar_toUpper {c : Char} (h : isWordChar c = true) : IsVariableChar c.toUpper := by
  rw [isVariableChar_iff]
  unfold Char.toUpper
  split
  · next hlower =>
    have hbounds : 97 ≤ c.toNat ∧ c.toNat ≤ 122 := hlower
    left
    show 65 ≤ (c.val + (65 - 97)).toNat ∧ (c.val + (65 - 97)).toNat ≤ 90
    rw [UInt32.toNat_add]
    simp
    omega
  · next hlower =>
    have hbounds : ¬ (97 ≤ c.toNat ∧ c.toNat ≤ 122) := hlower
    have hword := isWordChar_iff.1 h
    omega

/-- Capital letters, digits and underscores come before the end that all variables of sources
have. -/
lemma exists_stem_variableName (path : String) : ∃ stem : String,
    variableName path = stem ++ "_DEPS" ∧ ∀ c ∈ stem.toList, IsVariableChar c := by
  refine ⟨_, rfl, ?_⟩
  intro c hc
  rw [String.toList_ofList] at hc
  obtain ⟨d, -, rfl⟩ := List.mem_map.1 hc
  split
  · next hword => exact isVariableChar_toUpper hword
  · decide

/-- The variable of a path has no other characters. -/
lemma isVariableChar_variableName {path : String} :
    ∀ c ∈ (variableName path).toList, IsVariableChar c := by
  obtain ⟨stem, hname, hstem⟩ := exists_stem_variableName path
  have hend : ∀ c ∈ "_DEPS".toList, IsVariableChar c := by simp [IsVariableChar]
  rw [hname, String.toList_append, List.forall_mem_append]
  exact ⟨hstem, hend⟩

/-- Letters, digits and underscores mean nothing but themselves. -/
lemma IsVariableChar.isPlainChar {c : Char} (h : IsVariableChar c) : isPlainChar c = true := by
  have hother : (':' :: '#' :: '=' :: specialChars).all (fun other => ¬ IsVariableChar other) := by
    decide
  have hne : ∀ other ∈ ':' :: '#' :: '=' :: specialChars, c ≠ other :=
    fun other hmem heq => of_decide_eq_true (List.all_eq_true.1 hother other hmem) (heq ▸ h)
  have hblank : Text.isBlank c = false := by
    have hbounds := isVariableChar_iff.1 h
    simp [Text.isBlank]
    omega
  simp only [List.forall_mem_cons] at hne
  obtain ⟨hcolon, hhash, hequals, hspecial⟩ := hne
  have hplain : c ∉ specialChars := fun hmem => hspecial c hmem rfl
  simp [Makefile.isPlainChar, Makefile.isNameChar, hcolon, hhash, hequals, hblank, hplain]

/-- The variable of a source is plain whatever the path is. -/
lemma isPlain_variableName (path : String) : IsPlain (variableName path) :=
  fun c hc => (isVariableChar_variableName c hc).isPlainChar

/-- The variable of a source ends like no other. -/
lemma deps_isSuffix (path : String) : "_DEPS".toList <:+ (variableName path).toList := by
  obtain ⟨stem, hname, -⟩ := exists_stem_variableName path
  rw [hname, String.toList_append]
  exact List.suffix_append _ _

/-- The variable of a path is told from others by its end. -/
lemma variableName_ne {path name : String} (h : ¬ "_DEPS".toList <:+ name.toList) :
    variableName path ≠ name := by
  rintro rfl
  exact h (deps_isSuffix path)

/-- The variable of a path is a name. -/
lemma isName_variableName (path : String) : IsName (variableName path) :=
  (isPlain_variableName path).isName (variableName_ne (by decide))

/-- The reference to the variable of a source refers to that variable and to nothing else. -/
lemma references_dependenciesRef (path : String) :
    references (dependenciesRef path).toList = [variableName path] := by
  have hend : ')' ∉ (variableName path).toList := by
    intro hmem
    have hchar := isVariableChar_variableName _ hmem
    revert hchar
    decide
  have href := references_reference (isPlain_variableName path).not_mem_dollar hend
    (List.not_mem_nil (a := '$'))
  rwa [List.append_nil] at href

/-- An object file lies in the directory for them, whatever that is. -/
lemma toList_inObjectDirectory (name : String) :
    (inObjectDirectory name).toList =
      (reference "ODIR").toList ++ ('/' :: name.toList ++ ".o".toList) := by
  simp [inObjectDirectory, reference]

/-- Different names lie at different places in the directory for objects. -/
lemma inObjectDirectory_inj {name other : String} :
    inObjectDirectory name = inObjectDirectory other ↔ name = other := by
  rw [← String.toList_inj, toList_inObjectDirectory, toList_inObjectDirectory,
    List.append_cancel_left_eq, List.append_cancel_right_eq, List.cons_inj_right, String.toList_inj]

/-- What lies in the directory for objects has a name. -/
lemma inObjectDirectory_ne (name : String) : inObjectDirectory name ≠ "" := by
  intro heq
  have hlist := congrArg String.toList heq
  rw [toList_inObjectDirectory] at hlist
  cases hlist

/-- An object file is named by the reference to its directory and the flat name of the path. -/
lemma toList_objectFile (path : String) :
    (objectFile path).toList =
      (reference "ODIR").toList ++ ('/' :: (flatName path).toList ++ ".o".toList) :=
  toList_inObjectDirectory (flatName path)

/-- The object of a plain path refers to the directory for objects only. -/
lemma references_objectFile {path : String} (h : IsPlain path) :
    references (objectFile path).toList = ["ODIR"] := by
  have hflat : '$' ∉ (flatName path).toList := h.stripExtension.flatten.not_mem_dollar
  rw [toList_objectFile]
  refine references_reference (by decide) (by decide) ?_
  simpa using hflat

/-- The object of a plain path is a name. -/
lemma isName_objectFile {path : String} (h : IsPlain path) : IsName (objectFile path) := by
  have hflat : ∀ c ∈ (flatName path).toList, isNameChar c = true := fun c hc =>
    h.stripExtension.flatten.isNameChar c hc
  constructor
  · exact inObjectDirectory_ne (flatName path)
  · have hfront : ∀ c ∈ (reference "ODIR").toList ++ ['/'], isNameChar c = true :=
      List.all_eq_true.1 (by decide)
    have hend : ∀ c ∈ ".o".toList, isNameChar c = true := List.all_eq_true.1 (by decide)
    intro c hc
    rw [toList_objectFile, ← List.singleton_append, List.append_assoc, ← List.append_assoc] at hc
    rcases List.mem_append.1 hc with hc | hc
    · exact hfront c hc
    · rcases List.mem_append.1 hc with hc | hc
      · exact hflat c hc
      · exact hend c hc

/-- The variable of a source can be told from its path without directories. -/
lemma toList_variableName (path : String) : (variableName path).toList =
    ((flatName path).toList.map fun c => if isWordChar c then c.toUpper else '_') ++
      "_DEPS".toList := by
  have hflat : ∀ c : Char, (if isWordChar (if c = '/' then '_' else c) then
      (if c = '/' then '_' else c).toUpper else '_') = if isWordChar c then c.toUpper else '_' := by
    intro c
    by_cases hc : c = '/'
    · subst hc
      decide
    · simp only [hc, if_false]
  simp [variableName, flatName, flatten, hflat]

/-- Paths with one object have one variable. -/
lemma variableName_of_objectFile {path other : String} (h : objectFile path = objectFile other) :
    variableName path = variableName other := by
  have hflat : flatName path = flatName other := inObjectDirectory_inj.1 h
  rw [← String.toList_inj, toList_variableName, toList_variableName, hflat]

/-- Paths with one program have one variable. -/
lemma variableName_of_testProgram {path other : String}
    (h : testProgram path = testProgram other) : variableName path = variableName other := by
  unfold testProgram at h
  rw [variableName, variableName, h]

section clashes
variable {owners : List (String × String)} {before sources : List String} {source other : String}

/-- The first of the sources that has the variable of this one. -/
def owner (sources : List String) (source : String) : String :=
  (sources.find? fun other => variableName other = variableName source).getD source

/-- The owners are those of the variables of the sources: for each of them the first one. -/
def Owns (owners : List (String × String)) (sources : List String) : Prop :=
  ∀ name, owners.lookup name = sources.find? fun source => variableName source = name

/-- At the start nobody owns a variable. -/
lemma owns_nil : Owns [] [] :=
  fun _ => rfl

/-- A source whose variable has an owner changes nothing. -/
lemma Owns.concat_of_some (h : Owns owners before)
    (hsome : owners.lookup (variableName source) = some other) :
    Owns owners (before ++ [source]) := by
  intro name
  rw [List.find?_append, ← h name]
  cases hname : owners.lookup name with
  | some _ => rfl
  | none =>
    have hne : variableName source ≠ name := by
      rintro rfl
      cases hname.symm.trans hsome
    simp [hne]

/-- A source whose variable has no owner becomes its owner. -/
lemma Owns.concat_of_none (h : Owns owners before)
    (hnone : owners.lookup (variableName source) = none) :
    Owns (owners ++ [(variableName source, source)]) (before ++ [source]) := by
  intro name
  rw [List.lookup_append, List.find?_append, ← h name]
  by_cases hname : name = variableName source
  · subst hname
    simp [hnone]
  · simp [hname, Ne.symm hname]

/-- Who owns the variable of a source stays its owner. -/
lemma Owns.owner_of_some (h : Owns owners before)
    (hsome : owners.lookup (variableName source) = some other) (rest : List String) :
    owner (before ++ rest) source = other := by
  rw [h] at hsome
  rw [owner, List.find?_append, hsome]
  rfl

/-- A source whose variable nobody owns becomes its owner. -/
lemma Owns.owner_of_none (h : Owns owners before)
    (hnone : owners.lookup (variableName source) = none) (rest : List String) :
    owner (before ++ source :: rest) source = source := by
  rw [h] at hnone
  rw [owner, List.find?_append, hnone]
  simp

/-- A clash is found at the first source that is not the owner of its variable. -/
lemma Owns.findClash_eq (h : Owns owners before) : findClash owners sources =
    (sources.find? fun source => owner (before ++ sources) source ≠ source).map fun source =>
      (owner (before ++ sources) source, source) := by
  induction sources generalizing owners before with
  | nil => rfl
  | cons source sources ih =>
    have hall : before ++ source :: sources = before ++ [source] ++ sources := by simp
    rw [findClash]
    cases hlookup : owners.lookup (variableName source) with
    | some other =>
      have howner := h.owner_of_some hlookup (source :: sources)
      dsimp only
      split
      · next heq =>
        rw [List.find?_cons_of_neg (by simp [howner, heq]), hall]
        exact ih (h.concat_of_some hlookup)
      · next hne =>
        rw [List.find?_cons_of_pos (by simp [howner, hne]), Option.map_some, howner]
    | none =>
      have howner := h.owner_of_none hlookup sources
      rw [List.find?_cons_of_neg (by simp [howner]), hall]
      exact ih (h.concat_of_none hlookup)

/-- Where no clash is found, no two sources have one variable. -/
lemma eq_of_findClash (h : findClash [] sources = none) (hsource : source ∈ sources)
    (hother : other ∈ sources) (hsame : variableName source = variableName other) :
    source = other := by
  have howner : ∀ source ∈ sources, owner sources source = source := by
    rw [owns_nil.findClash_eq, Option.map_eq_none_iff, List.find?_eq_none] at h
    simpa using h
  have hfind : (sources.find? fun any => variableName any = variableName source).isSome :=
    List.find?_isSome.2 ⟨source, hsource, by simp⟩
  obtain ⟨first, hfirst⟩ := Option.isSome_iff_exists.1 hfind
  have hfirst' := hfirst
  rw [hsame] at hfirst'
  calc source = owner sources source := (howner source hsource).symm
    _ = first := by rw [owner, hfirst, Option.getD_some]
    _ = owner sources other := by rw [owner, hfirst', Option.getD_some]
    _ = other := howner other hother

/-- Sources that are let pass have no clash between them. -/
lemma findClash_of_check {tests : List String} {c : Config}
    (h : check sources tests c = .ok ()) : findClash [] sources = none := by
  unfold check at h
  split at h
  · cases h
  · next hclash => exact hclash

/-- Sources that pass the check have variables of their own. -/
lemma nodup_variableName {tests : List String} {c : Config}
    (h : check sources tests c = .ok ()) (hnodup : sources.Nodup) :
    (sources.map variableName).Nodup :=
  hnodup.map_on fun _ hsource _ hother => eq_of_findClash (findClash_of_check h) hsource hother

end clashes

/-- What a test builds has the name of no other target, and not that of the program. -/
lemma testProgram_not_mem {sources tests : List String} {c : Config}
    (h : check sources tests c = .ok ()) {test : String} (htest : test ∈ tests) :
    testProgram test ∉ c.program :: reservedTargets := by
  unfold check at h
  split at h
  · cases h
  · split at h
    · cases h
    · next hnone =>
      have hnot := List.find?_eq_none.1 hnone test htest
      simpa using hnot

end MakeDeps.Makefile
