import MakeDeps.Proofs.Text.Words
import MakeDeps.Text.Cut

/-!
# Reading a Makefile

What the text of a Makefile says, line by line. A line that starts with a tab is a command; in any
other line a hash begins a comment. A name followed by an operator begins an assignment, and any
other line with a colon begins a rule (`assignment?`, `Reading.ofLine`). Each line is read by
itself, so a backslash at its end means nothing here, and neither does a semicolon in a rule. The
text of a line reads as what the line means (`ofLine_text`), and so does a whole Makefile
(`readings_print`).
-/

namespace MakeDeps.Makefile

/-- May the character stand in the name of a variable or of a target? -/
def isNameChar (c : Char) : Bool :=
  c != ':' && c != '#' && c != '=' && !Text.isBlank c

/-- How a line assigns a variable: anew and at once, in addition to what it has, or in a way that is
not settled where the line stands. -/
inductive Operator where
  | assign
  | add
  | define
  deriving DecidableEq

/-- The operators as they are written. -/
def operators : List (String × Operator) :=
  [(":=", .assign), ("::=", .assign), ("+=", .add), ("?=", .define), ("!=", .define),
    ("=", .define)]

/-- What a line assigns: the variable, the operator, and the text of the value. -/
structure Assignment where
  name : String
  operator : Operator
  value : List Char
  deriving DecidableEq

/-- The name that a line starts with, and the rest of the line. The first character of an operator
may stand directly behind the name. -/
def splitName (line : List Char) : List Char × List Char :=
  let name := line.takeWhile isNameChar
  let rest := line.dropWhile isNameChar
  match name.getLast? with
  | some c =>
    if c ∈ ['+', '?', '!'] ∧ rest.head? = some '=' then (name.dropLast, c :: rest)
    else (name, rest)
  | none => (name, rest)

/-- Reads a line as an assignment. -/
def assignment? (line : List Char) : Option Assignment :=
  let split := splitName line
  operators.findSome? fun (sign, operator) =>
    (Text.dropStart? sign.toList (Text.trimLeft split.2)).map fun value =>
      ⟨String.ofList split.1, operator, value⟩

/-- A plus sign in a name, and one that belongs to the operator. -/
example : assignment? "a+b += c".toList = some ⟨"a+b", .add, " c".toList⟩ ∧
    assignment? "a+=b".toList = some ⟨"a", .add, ['b']⟩ := by
  decide

/-- What a line of a Makefile says. -/
inductive Reading where
  | nothing
  /-- The variable gets these words as its value. -/
  | assignment (name : String) (value : List String)
  /-- The variable gets these words in addition to those it has. -/
  | addition (name : String) (value : List String)
  /-- The variable is assigned in another way. -/
  | definition (name : String) (value : List String)
  /-- A rule begins. A bar among the prerequisites divides those that only need to exist. -/
  | rule (targets prerequisites : List String)
  | command (command : List String)
  deriving DecidableEq

/-- A line up to its comment. -/
def uncommented (line : List Char) : List Char :=
  line.takeWhile (· != '#')

namespace Reading

/-- What an assignment says. -/
def ofAssignment (a : Assignment) : Reading :=
  match a.operator with
  | .assign => .assignment a.name (Text.words a.value)
  | .add => .addition a.name (Text.words a.value)
  | .define => .definition a.name (Text.words a.value)

/-- Reads a line that is no command and has no comment. -/
def ofStatement (line : List Char) : Reading :=
  match assignment? line with
  | some a => ofAssignment a
  | none =>
    match Text.cutFirst ':' line with
    | some (targets, prerequisites) => .rule (Text.words targets) (Text.words prerequisites)
    | none => .nothing

/-- Reads a line. -/
def ofLine (line : List Char) : Reading :=
  match Text.dropStart? ['\t'] line with
  | some rest => .command (Text.words rest)
  | none => ofStatement (uncommented line)

end Reading

/-- What the lines of a text say. -/
def readings (text : String) : List Reading :=
  (text.toList.splitOn '\n').map Reading.ofLine

/-- Is the text the name of a variable or of a target? -/
def IsName (s : String) : Prop :=
  s ≠ "" ∧ ∀ c ∈ s.toList, isNameChar c = true

/-- Does the text stand on one line? -/
def IsSingleLine (s : String) : Prop :=
  '\n' ∉ s.toList

/-- Does the text stand on the line of a rule, and before any comment? -/
def IsRuleText (s : String) : Prop :=
  IsSingleLine s ∧ '#' ∉ s.toList

/-- Whether a text is a name can be computed. -/
instance (s : String) : Decidable (IsName s) :=
  decidable_of_iff (s ≠ "" ∧ s.toList.all isNameChar = true) (by simp [IsName])

/-- Whether a text stands on one line can be computed. -/
instance (s : String) : Decidable (IsSingleLine s) := by
  unfold IsSingleLine
  infer_instance

/-- Whether a text may stand in a rule can be computed. -/
instance (s : String) : Decidable (IsRuleText s) := by
  unfold IsRuleText
  infer_instance

/-- A blank ends a name. -/
lemma isNameChar_blank : isNameChar ' ' = false := by decide

/-- A colon ends a name. -/
lemma isNameChar_colon : isNameChar ':' = false := by decide

/-- A hash ends a name. -/
lemma isNameChar_hash : isNameChar '#' = false := by decide

/-- No character of a name is blank. -/
lemma not_isBlank_of_isNameChar {c : Char} (h : isNameChar c = true) : Text.isBlank c = false := by
  simp only [isNameChar, Bool.and_eq_true, Bool.not_eq_true'] at h
  exact h.2

/-- A name is one word. -/
lemma IsName.isWord {s : String} (h : IsName s) : Text.IsWord s :=
  ⟨h.1, fun c hc => not_isBlank_of_isNameChar (h.2 c hc)⟩

/-- A name has no character that may not be in one. -/
lemma IsName.not_mem {s : String} (h : IsName s) {c : Char} (hc : isNameChar c = false) :
    c ∉ s.toList := by
  intro hmem
  rw [h.2 c hmem] at hc
  cases hc

/-- A name stands on one line. -/
lemma IsName.isSingleLine {s : String} (h : IsName s) : IsSingleLine s :=
  h.not_mem (by decide)

/-- Two texts on one line stand on one line together. -/
lemma isSingleLine_append {s t : String} (hs : IsSingleLine s) (ht : IsSingleLine t) :
    IsSingleLine (s ++ t) := by
  unfold IsSingleLine
  rw [String.toList_append, List.mem_append]
  exact not_or.2 ⟨hs, ht⟩

/-- A name may stand in a rule. -/
lemma IsName.isRuleText {s : String} (h : IsName s) : IsRuleText s :=
  ⟨h.isSingleLine, h.not_mem isNameChar_hash⟩

/-- What has no hash in it stands before the comment. -/
lemma uncommented_append {xs : List Char} (h : '#' ∉ xs) (ys : List Char) :
    uncommented (xs ++ ys) = xs ++ uncommented ys := by
  refine List.takeWhile_append_of_pos fun c hc => bne_iff_ne.2 ?_
  rintro rfl
  exact h hc

/-- A text without a sign for comments has no comment. -/
lemma uncommented_eq_self {xs : List Char} (h : '#' ∉ xs) : uncommented xs = xs := by
  have happend := uncommented_append h []
  rwa [List.append_nil, show uncommented [] = [] from rfl, List.append_nil] at happend

/-- Blanks at the end add no word, neither to a statement nor to its comment. -/
lemma words_uncommented_trimRight (cs : List Char) :
    Text.words (uncommented (Text.trimRight cs)) = Text.words (uncommented cs) := by
  obtain ⟨blanks, hcs, hblank⟩ := Text.exists_blanks cs
  have hhash : '#' ∉ blanks := by
    intro hmem
    have hchar := hblank _ hmem
    revert hchar
    decide
  conv => rhs; rw [hcs]
  unfold uncommented
  rw [List.takeWhile_append]
  split
  · next hlength =>
    -- there is no comment in what is left of the text
    have hself := List.takeWhile_prefix (· != '#') (l := Text.trimRight cs) |>.eq_of_length hlength
    have hblanks : blanks.takeWhile (· != '#') = blanks := uncommented_eq_self hhash
    rw [hself, hblanks, Text.words_append_blanks _ hblank]
  · rfl

section comments

/-- A character other than a hash is no comment. -/
lemma uncommented_cons {c : Char} (h : c ≠ '#') (cs : List Char) :
    uncommented (c :: cs) = c :: uncommented cs :=
  List.takeWhile_cons_of_pos (bne_iff_ne.2 h)

/-- What is dropped from the front of a statement is dropped from the front of the whole line. -/
lemma dropWhile_uncommented {p : Char → Bool} (hp : p '#' = false) (cs : List Char) :
    (uncommented cs).dropWhile p = uncommented (cs.dropWhile p) := by
  induction cs with
  | nil => rfl
  | cons c cs ih =>
    by_cases hc : c = '#'
    · subst hc
      simp [uncommented, hp]
    · rw [uncommented_cons hc, List.dropWhile_cons, List.dropWhile_cons]
      split
      · exact ih
      · rw [uncommented_cons hc]

/-- What is taken from the front of a statement is taken from the front of the whole line. -/
lemma takeWhile_uncommented {p : Char → Bool} (hp : p '#' = false) (cs : List Char) :
    (uncommented cs).takeWhile p = cs.takeWhile p := by
  rw [uncommented, List.takeWhile_takeWhile]
  congr 1
  funext c
  by_cases hc : c = '#'
  · simp [hc, hp]
  · simp [hc]

/-- A statement and its line start with the same operators. -/
lemma dropStart?_uncommented {sign : List Char} (h : '#' ∉ sign) (cs : List Char) :
    Text.dropStart? sign (uncommented cs) = (Text.dropStart? sign cs).map uncommented := by
  induction sign generalizing cs with
  | nil => rfl
  | cons a sign ih =>
    obtain ⟨ha, hsign⟩ := not_or.1 (mt List.mem_cons.2 h)
    cases cs with
    | nil => rfl
    | cons c cs =>
      by_cases hc : c = '#'
      · subst hc
        simp [uncommented, Text.dropStart?, Ne.symm ha]
      · rw [uncommented_cons hc]
        simp only [Text.dropStart?]
        split
        · exact ih hsign cs
        · rfl

/-- The name in a statement is that of the line. -/
lemma splitName_uncommented (line : List Char) :
    splitName (uncommented line) = ((splitName line).1, uncommented (splitName line).2) := by
  have hhead : (uncommented (line.dropWhile isNameChar)).head? = some '=' ↔
      (line.dropWhile isNameChar).head? = some '=' := by
    cases line.dropWhile isNameChar with
    | nil => rfl
    | cons c cs => by_cases hc : c = '#' <;> simp [uncommented, hc]
  unfold splitName
  rw [takeWhile_uncommented isNameChar_hash, dropWhile_uncommented isNameChar_hash]
  dsimp only
  split
  · next c _ =>
    simp only [hhead]
    split
    · next hc =>
      have hsign : ∀ sign ∈ ['+', '?', '!'], sign ≠ '#' := by simp
      rw [uncommented_cons (hsign c hc.1)]
    · rfl
  · rfl

/-- A comment takes something from the value of an assignment, and nothing else. -/
lemma assignment?_uncommented (line : List Char) : assignment? (uncommented line) =
    (assignment? line).map fun a => { a with value := uncommented a.value } := by
  have hsigns : ∀ item ∈ operators, '#' ∉ item.1.toList := by decide
  have hread : ∀ item ∈ operators, ∀ rest : List Char,
      Text.dropStart? item.1.toList (Text.trimLeft (uncommented rest)) =
        (Text.dropStart? item.1.toList (Text.trimLeft rest)).map uncommented := by
    intro item hmem rest
    rw [Text.trimLeft, dropWhile_uncommented (by decide), dropStart?_uncommented (hsigns _ hmem)]
    rfl
  rw [assignment?, assignment?, splitName_uncommented]
  generalize splitName line = split
  generalize operators = signs at hread
  induction signs with
  | nil => rfl
  | cons item signs ih =>
    rw [List.findSome?_cons, List.findSome?_cons]
    dsimp only
    rw [hread item List.mem_cons_self]
    cases Text.dropStart? item.1.toList (Text.trimLeft split.2) with
    | none => exact ih fun other hother => hread other (List.mem_cons_of_mem _ hother)
    | some value => rfl

end comments

namespace Reading

/-- A name starts with no tab. -/
lemma dropTab_name {name : String} (h : IsName name) (rest : List Char) :
    Text.dropStart? ['\t'] (name.toList ++ rest) = none := by
  obtain ⟨hne, hchars⟩ := h
  cases hname : name.toList with
  | nil => exact absurd (String.toList_eq_nil_iff.1 hname) hne
  | cons c cs =>
    have hc : '\t' ≠ c := by
      rintro rfl
      have := hchars '\t' (by simp [hname])
      revert this
      decide
    simp [Text.dropStart?, hc]

/-- A name is taken from the front up to a character that may not be in one. -/
lemma takeWhile_name {name : String} (h : IsName name) {c : Char} (hc : isNameChar c = false)
    (rest : List Char) : (name.toList ++ c :: rest).takeWhile isNameChar = name.toList := by
  rw [List.takeWhile_append_of_pos h.2, List.takeWhile_cons_of_neg (by simp [hc]), List.append_nil]

/-- What stands behind a name is left when the name is dropped. -/
lemma dropWhile_name {name : String} (h : IsName name) {c : Char} (hc : isNameChar c = false)
    (rest : List Char) : (name.toList ++ c :: rest).dropWhile isNameChar = c :: rest := by
  rw [List.dropWhile_append_of_pos h.2, List.dropWhile_cons_of_neg (by simp [hc])]

/-- A line behind a tab is a command. -/
lemma ofLine_command (cs : List Char) : ofLine ('\t' :: cs) = .command (Text.words cs) := rfl

/-- A line that starts with a name is a statement up to its comment. -/
lemma ofLine_name {name : String} (h : IsName name) (rest : List Char) :
    ofLine (name.toList ++ rest) = ofStatement (name.toList ++ uncommented rest) := by
  rw [ofLine, dropTab_name h, uncommented_append (h.not_mem isNameChar_hash)]

/-- What follows a name is cut off from it, unless it is an equals sign. -/
lemma splitName_append {name : String} (h : IsName name) {c : Char} (hc : isNameChar c = false)
    (hequals : c ≠ '=') (rest : List Char) :
    splitName (name.toList ++ c :: rest) = (name.toList, c :: rest) := by
  rw [splitName, takeWhile_name h hc, dropWhile_name h hc]
  split
  · rw [if_neg]
    rintro ⟨-, hhead⟩
    exact hequals (Option.some.inj hhead)
  · rfl

/-- A name, a blank and the operator make an assignment. -/
lemma assignment?_assign {name : String} (h : IsName name) (rest : List Char) :
    assignment? (name.toList ++ ' ' :: ':' :: '=' :: rest) = some ⟨name, .assign, rest⟩ := by
  rw [assignment?, splitName_append h isNameChar_blank (by decide), String.ofList_toList]
  rfl

/-- A name, a blank and the operator make an addition. -/
lemma assignment?_add {name : String} (h : IsName name) (rest : List Char) :
    assignment? (name.toList ++ ' ' :: '+' :: '=' :: rest) = some ⟨name, .add, rest⟩ := by
  rw [assignment?, splitName_append h isNameChar_blank (by decide), String.ofList_toList]
  rfl

/-- A line that is an assignment says that one, up to the comment in the value. -/
lemma ofLine_assignment {line : List Char} {a : Assignment}
    (htab : Text.dropStart? ['\t'] line = none) (h : assignment? line = some a) :
    ofLine line = ofAssignment { a with value := uncommented a.value } := by
  rw [ofLine, htab]
  dsimp only
  rw [ofStatement, assignment?_uncommented, h]
  rfl

/-- A colon directly after a name begins the prerequisites, unless it is part of an operator. -/
lemma ofStatement_rule {target : String} (h : IsName target) {rest : List Char}
    (hequals : rest.head? ≠ some '=') (hcolon : rest.head? ≠ some ':') :
    ofStatement (target.toList ++ ':' :: rest) = .rule [target] (Text.words rest) := by
  have hassign : assignment? (target.toList ++ ':' :: rest) = none := by
    rw [assignment?, splitName_append h isNameChar_colon (by decide),
      Text.trimLeft_cons_of_not_blank (by decide)]
    cases rest with
    | nil => rfl
    | cons c rest =>
      have hnotEquals : '=' ≠ c := fun heq => hequals (heq ▸ rfl)
      have hnotColon : ':' ≠ c := fun heq => hcolon (heq ▸ rfl)
      simp [operators, Text.dropStart?, hnotEquals, hnotColon]
  have hcut : Text.cutFirst ':' (target.toList ++ ':' :: rest) = some (target.toList, rest) :=
    Text.cutFirst_append_cons (h.not_mem isNameChar_colon) rest
  simp [ofStatement, hassign, hcut, h.isWord.words]

end Reading

namespace Line

/-- What is in no text, and no space, is not in their words. -/
lemma not_mem_words {c : Char} (hc : c ≠ ' ') {texts : List String}
    (h : ∀ text ∈ texts, c ∉ text.toList) : c ∉ (words texts).toList := by
  unfold words
  induction texts with
  | nil => simp
  | cons text rest ih =>
    have htext := h text List.mem_cons_self
    have hrest := ih fun other hother => h other (List.mem_cons_of_mem _ hother)
    cases rest with
    | nil => simpa using htext
    | cons next rest =>
      rw [String.intercalate_cons_cons, String.toList_append, String.toList_append]
      simp only [List.mem_append, not_or]
      exact ⟨⟨htext, by simpa using hc⟩, hrest⟩

/-- Texts with a space in front of each. -/
def spaced (texts : List String) : List Char :=
  texts.flatMap fun text => ' ' :: text.toList

/-- What is in no text, and no space, is not in the spaced texts. -/
lemma not_mem_spaced {c : Char} (hc : c ≠ ' ') {texts : List String}
    (h : ∀ text ∈ texts, c ∉ text.toList) : c ∉ spaced texts := by
  intro hmem
  obtain ⟨text, htext, hmem⟩ := List.mem_flatMap.1 hmem
  exact h text htext (List.mem_of_ne_of_mem hc hmem)

/-- What follows the prerequisites in the text of a rule. -/
def bar (ordered : List String) : List Char :=
  if ordered.isEmpty then [] else ' ' :: '|' :: ' ' :: (words ordered).toList

/-- What is in no text, no space and no bar, is not behind the bar. -/
lemma not_mem_bar {c : Char} (hc : c ≠ ' ') (hbar : c ≠ '|') {ordered : List String}
    (h : ∀ text ∈ ordered, c ∉ text.toList) : c ∉ bar ordered := by
  cases ordered with
  | nil => simp [bar]
  | cons next rest => simp [bar, hc, hbar, not_mem_words hc h]

/-- What stands behind the prerequisites begins with a blank. -/
lemma blank_bar (ordered : List String) : ∀ c ∈ (bar ordered).head?, Text.isBlank c = true := by
  cases ordered with
  | nil => simp [bar]
  | cons next rest =>
    rintro c hc
    cases hc
    decide

/-- The words behind the prerequisites are a bar and the ordered ones, if there are any. -/
lemma words_bar (ordered : List String) :
    Text.words (bar ordered) =
      if ordered.isEmpty then [] else "|" :: Text.allWords ordered := by
  cases ordered with
  | nil => simp [bar]
  | cons next rest =>
    have hspace : Text.isBlank ' ' = true := by decide
    have hbar : Text.words ['|'] = ["|"] := by decide
    have hcut := Text.words_append_blank hspace ['|'] (words (next :: rest)).toList
    rw [hbar, Text.words_joined] at hcut
    exact (Text.words_blank_cons hspace _).trans hcut

/-- A blank follows the colon of a rule, if anything does. -/
lemma head_spaced (prerequisites ordered : List String) {c : Char} (hc : c ≠ ' ') :
    (spaced prerequisites ++ bar ordered).head? ≠ some c := by
  cases prerequisites with
  | nil =>
    cases ordered with
    | nil => simp [spaced, bar]
    | cons next rest => simpa [spaced, bar] using hc.symm
  | cons text rest => simpa [spaced] using hc.symm

/-- The text of an assignment. -/
lemma toList_assign (name : String) (value : List String) :
    (assign name value).text.toList =
      name.toList ++ ' ' :: ':' :: '=' :: ' ' :: (words value).toList := by
  simp [text]

/-- Trimming stops at the equals sign at the latest. -/
lemma toList_assignTrimmed (name : String) (value : List String) :
    (assignTrimmed name value).text.toList =
      name.toList ++ ' ' :: ':' :: '=' :: Text.trimRight (' ' :: (words value).toList) := by
  have hstop := Text.trimRight_append_cons (by decide : Text.isBlank '=' = false)
    (name.toList ++ [' ', ':']) (' ' :: (words value).toList)
  simpa [text, trimmed] using hstop

/-- The text of an addition. -/
lemma toList_append (name : String) (value : List String) :
    (append name value).text.toList =
      name.toList ++ ' ' :: '+' :: '=' :: ' ' :: (words value).toList := by
  simp [text]

/-- The text of a rule. -/
lemma toList_rule (target : String) (prerequisites ordered : List String) :
    (rule target prerequisites ordered).text.toList =
      target.toList ++ ':' :: (spaced prerequisites ++ bar ordered) := by
  cases ordered with
  | nil => simp [text, spaced, bar, String.toList_join, List.flatMap_map]
  | cons next rest => simp [text, spaced, bar, String.toList_join, List.flatMap_map]

/-- The text of a command. -/
lemma toList_recipe (command : List String) :
    (recipe command).text.toList = '\t' :: (words command).toList := by
  simp [text]

/-- The names in the line are names, nothing breaks it, and a rule has no comment. -/
def Fits : Line → Prop
  | blank => True
  | assign name value => IsName name ∧ ∀ text ∈ value, IsSingleLine text
  | assignTrimmed name value => IsName name ∧ ∀ text ∈ value, IsSingleLine text
  | append name value => IsName name ∧ ∀ text ∈ value, IsSingleLine text
  | rule target prerequisites ordered =>
    IsName target ∧ ∀ text ∈ prerequisites ++ ordered, IsRuleText text
  | recipe command => ∀ text ∈ command, IsSingleLine text

/-- Whether a line fits can be computed. -/
instance (line : Line) : Decidable line.Fits := by
  cases line <;> unfold Fits <;> infer_instance

/-- A line that fits is one line. -/
lemma Fits.isSingleLine {line : Line} (h : line.Fits) : IsSingleLine line.text := by
  have hspace : '\n' ≠ ' ' := by decide
  cases line with
  | blank => decide
  | assign name value =>
    obtain ⟨hname, hvalue⟩ := h
    have hwords := not_mem_words hspace hvalue
    unfold IsSingleLine
    rw [toList_assign]
    have hline : '\n' ∉ name.toList := hname.isSingleLine
    simp [hline, hwords]
  | assignTrimmed name value =>
    obtain ⟨hname, hvalue⟩ := h
    have hwords : '\n' ∉ Text.trimRight (' ' :: (words value).toList) := by
      apply Text.not_mem_trimRight
      exact List.not_mem_cons_of_ne_of_not_mem hspace (not_mem_words hspace hvalue)
    unfold IsSingleLine
    rw [toList_assignTrimmed]
    have hline : '\n' ∉ name.toList := hname.isSingleLine
    simp [hline, hwords]
  | append name value =>
    obtain ⟨hname, hvalue⟩ := h
    have hwords := not_mem_words hspace hvalue
    unfold IsSingleLine
    rw [toList_append]
    have hline : '\n' ∉ name.toList := hname.isSingleLine
    simp [hline, hwords]
  | rule target prerequisites ordered =>
    obtain ⟨htarget, htexts⟩ := h
    have hspaced := not_mem_spaced hspace fun text htext =>
      (htexts text (List.mem_append_left _ htext)).1
    have hbar := not_mem_bar hspace (by decide) fun text htext =>
      (htexts text (List.mem_append_right _ htext)).1
    unfold IsSingleLine
    rw [toList_rule]
    have hline : '\n' ∉ target.toList := htarget.isSingleLine
    simp [hline, hspaced, hbar]
  | recipe command =>
    have hwords := not_mem_words hspace h
    unfold IsSingleLine
    rw [toList_recipe]
    simp [hwords]

/-- What the line is meant to say. -/
def reading : Line → Reading
  | blank => .nothing
  | assign name value => .assignment name (Text.words (uncommented (words value).toList))
  | assignTrimmed name value => .assignment name (Text.words (uncommented (words value).toList))
  | append name value => .addition name (Text.words (uncommented (words value).toList))
  | rule target prerequisites ordered =>
    .rule [target] (Text.allWords prerequisites ++
      if ordered.isEmpty then [] else "|" :: Text.allWords ordered)
  | recipe command => .command (Text.allWords command)

/-- What the text of a line says is what the line is meant to say. -/
lemma ofLine_text {line : Line} (h : line.Fits) :
    Reading.ofLine line.text.toList = line.reading := by
  have hspace : Text.isBlank ' ' = true := by decide
  cases line with
  | blank => rfl
  | assign name value =>
    rw [toList_assign, Reading.ofLine_assignment (Reading.dropTab_name h.1 _)
      (Reading.assignment?_assign h.1 _)]
    exact congrArg _ (Text.words_blank_cons hspace (uncommented (words value).toList))
  | assignTrimmed name value =>
    rw [toList_assignTrimmed, Reading.ofLine_assignment (Reading.dropTab_name h.1 _)
      (Reading.assignment?_assign h.1 _), Reading.ofAssignment]
    dsimp only
    rw [words_uncommented_trimRight]
    exact congrArg _ (Text.words_blank_cons hspace (uncommented (words value).toList))
  | append name value =>
    rw [toList_append, Reading.ofLine_assignment (Reading.dropTab_name h.1 _)
      (Reading.assignment?_add h.1 _)]
    exact congrArg _ (Text.words_blank_cons hspace (uncommented (words value).toList))
  | rule target prerequisites ordered =>
    obtain ⟨htarget, htexts⟩ := h
    have hspaced := not_mem_spaced (by decide : '#' ≠ ' ') fun text htext =>
      (htexts text (List.mem_append_left _ htext)).2
    have hbar := not_mem_bar (by decide : '#' ≠ ' ') (by decide) fun text htext =>
      (htexts text (List.mem_append_right _ htext)).2
    have hhash : '#' ∉ ':' :: (spaced prerequisites ++ bar ordered) := by
      simp [hspaced, hbar]
    rw [toList_rule, Reading.ofLine_name htarget, uncommented_eq_self hhash,
      Reading.ofStatement_rule htarget (head_spaced prerequisites ordered (by decide))
        (head_spaced prerequisites ordered (by decide)), spaced,
      Text.words_spaced prerequisites (blank_bar ordered), words_bar]
    rfl
  | recipe command =>
    rw [toList_recipe, Reading.ofLine_command, Text.words_joined]
    rfl

/-- The bar and the comment of a rule. -/
example : Reading.ofLine "a.o: $(A_DEPS) a.h | $(ODIR) # object".toList =
    .rule ["a.o"] ["$(A_DEPS)", "a.h", "|", "$(ODIR)"] := by
  decide

end Line

/-- Printed lines are the lines of the text if none is broken, whatever is printed after them. -/
lemma splitOn_print_append {lines : List Line} (h : ∀ line ∈ lines, IsSingleLine line.text)
    (rest : List Line) : (print (lines ++ rest)).toList.splitOn '\n' =
      lines.map (fun line => line.text.toList) ++ (print rest).toList.splitOn '\n' := by
  unfold print
  rw [String.toList_join, String.toList_join]
  induction lines with
  | nil => rfl
  | cons line lines ih =>
    have hline := h line List.mem_cons_self
    have hlines := ih fun other hother => h other (List.mem_cons_of_mem _ hother)
    rw [List.cons_append, List.map_cons, List.flatMap_cons, String.toList_append,
      List.append_assoc, show "\n".toList = ['\n'] from rfl, List.singleton_append,
      List.splitOn_append_cons_self_of_not_mem hline, hlines]
    rfl

/-- A printed Makefile says what its lines say, and nothing after the last of them. -/
lemma readings_print_eq_map {lines : List Line} (h : ∀ line ∈ lines, IsSingleLine line.text) :
    readings (print lines) =
      lines.map (fun line => Reading.ofLine line.text.toList) ++ [.nothing] := by
  have hlines := splitOn_print_append h []
  rw [List.append_nil] at hlines
  rw [readings, hlines, List.map_append, List.map_map]
  rfl

/-- Lines that fit say what they are meant to say. -/
lemma readings_print {lines : List Line} (h : ∀ line ∈ lines, line.Fits) :
    readings (print lines) = lines.map Line.reading ++ [.nothing] := by
  rw [readings_print_eq_map fun line hline => (h line hline).isSingleLine]
  congr 1
  exact List.map_congr_left fun line hline => Line.ofLine_text (h line hline)

end MakeDeps.Makefile
