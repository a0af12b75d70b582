import MakeDeps.Makefile.Line
import MakeDeps.Proofs.Text.Trim

/-!
# Words

The words of a text are what stands between its blanks. Cutting a text at a blank cuts its words
(`words_append_blank`); from this it follows what the words of a printed line are.
-/

namespace MakeDeps.Text

/-- The words of a text. -/
def words (cs : List Char) : List String :=
  ((cs.splitOnP isBlank).filter (· ≠ [])).map String.ofList

/-- Is the text one word, and nothing else? -/
def IsWord (s : String) : Prop :=
  s ≠ "" ∧ ∀ c ∈ s.toList, isBlank c = false

/-- Whether a text is a word can be computed. -/
instance (s : String) : Decidable (IsWord s) :=
  decidable_of_iff (s ≠ "" ∧ s.toList.all (fun c => !isBlank c) = true) (by simp [IsWord])

/-- A text without characters has no words. -/
@[simp] lemma words_nil : words [] = [] := by
  simp [words, List.splitOnP_nil]

/-- The words before a blank and those after it make up the words. -/
lemma words_append_blank {c : Char} (h : isBlank c) (xs ys : List Char) :
    words (xs ++ c :: ys) = words xs ++ words ys := by
  rw [words, List.splitOnP_append_cons xs ys h, List.filter_append, List.map_append]
  rfl

/-- A blank in front belongs to no word. -/
lemma words_blank_cons {c : Char} (h : isBlank c) (cs : List Char) :
    words (c :: cs) = words cs := by
  simpa using words_append_blank h [] cs

/-- A text that starts with a blank, or is empty, starts no word of its own. -/
lemma words_append (xs : List Char) {ys : List Char} (h : ∀ c ∈ ys.head?, isBlank c = true) :
    words (xs ++ ys) = words xs ++ words ys := by
  cases ys with
  | nil => simp
  | cons c ys =>
    have hc : isBlank c = true := h c rfl
    rw [words_append_blank hc, words_blank_cons hc]

/-- Blanks at the end belong to no word. -/
lemma words_append_blanks (xs : List Char) {ys : List Char} (h : ∀ c ∈ ys, isBlank c = true) :
    words (xs ++ ys) = words xs := by
  have hnil : ∀ cs : List Char, (∀ c ∈ cs, isBlank c = true) → words cs = [] := by
    intro cs hcs
    induction cs with
    | nil => exact words_nil
    | cons c cs ih =>
      rw [words_blank_cons (hcs c List.mem_cons_self)]
      exact ih fun d hd => hcs d (List.mem_cons_of_mem _ hd)
  cases ys with
  | nil => rw [List.append_nil]
  | cons c ys =>
    -- the first blank cuts off the others
    rw [words_append_blank (h c List.mem_cons_self),
      hnil ys fun d hd => h d (List.mem_cons_of_mem _ hd), List.append_nil]

/-- Trimming takes nothing from the words. -/
lemma words_trimRight (cs : List Char) : words (trimRight cs) = words cs := by
  obtain ⟨blanks, hcs, hblank⟩ := exists_blanks cs
  have hwords := words_append_blanks (trimRight cs) hblank
  rw [← hcs] at hwords
  exact hwords.symm

/-- A word is the only word of its text. -/
lemma IsWord.words {s : String} (h : IsWord s) : Text.words s.toList = [s] := by
  have hne : s.toList ≠ [] := fun hnil => h.1 (String.toList_eq_nil_iff.1 hnil)
  rw [Text.words, List.splitOnP_eq_singleton h.2]
  simp [hne]

/-- The words of a text are words, and made of characters of the text. -/
lemma forall_mem_words (cs : List Char) :
    ∀ word ∈ words cs, IsWord word ∧ ∀ c ∈ word.toList, c ∈ cs := by
  induction hlength : cs.length using Nat.strong_induction_on generalizing cs with
  | _ n ih =>
    by_cases hblank : ∃ c ∈ cs, isBlank c = true
    · -- a blank cuts the text into two shorter ones
      obtain ⟨c, hc, hblank⟩ := hblank
      obtain ⟨xs, ys, rfl⟩ := List.append_of_mem hc
      simp only [List.length_append, List.length_cons] at hlength
      have hxs := ih xs.length (by omega) xs rfl
      have hys := ih ys.length (by omega) ys rfl
      intro word hword
      rw [words_append_blank hblank, List.mem_append] at hword
      rcases hword with hword | hword
      · obtain ⟨hisWord, hmem⟩ := hxs word hword
        exact ⟨hisWord, fun d hd => List.mem_append_left _ (hmem d hd)⟩
      · obtain ⟨hisWord, hmem⟩ := hys word hword
        exact ⟨hisWord, fun d hd => List.mem_append_right _ (List.mem_cons_of_mem _ (hmem d hd))⟩
    · have hchars : ∀ c ∈ cs, isBlank c = false := fun c hc => by
        simpa using fun hb => hblank ⟨c, hc, hb⟩
      cases cs with
      | nil => simp
      | cons c cs =>
        have hword : IsWord (String.ofList (c :: cs)) := by
          refine ⟨by simp, ?_⟩
          rw [String.toList_ofList]
          exact hchars
        have hwords := hword.words
        rw [String.toList_ofList] at hwords
        rw [hwords]
        simpa using hword

/-- The words of several texts. -/
def allWords (texts : List String) : List String :=
  texts.flatMap fun text => words text.toList

/-- No texts have no words. -/
@[simp] lemma allWords_nil : allWords [] = [] := rfl

/-- The words of texts are those of the first and those of the others. -/
@[simp] lemma allWords_cons (text : String) (texts : List String) :
    allWords (text :: texts) = words text.toList ++ allWords texts := rfl

/-- The words of two lists of texts are those of the first and those of the second. -/
lemma allWords_append (xs ys : List String) : allWords (xs ++ ys) = allWords xs ++ allWords ys :=
  List.flatMap_append

/-- A space between any two texts keeps their words apart. -/
lemma words_joined (texts : List String) :
    words (Makefile.Line.words texts).toList = allWords texts := by
  unfold Makefile.Line.words
  induction texts with
  | nil => simp
  | cons text rest ih =>
    cases rest with
    | nil => simp
    | cons next rest =>
      rw [String.intercalate_cons_cons, allWords_cons, ← ih, String.toList_append,
        String.toList_append, List.append_assoc]
      exact words_append_blank (by decide) _ _

/-- So does a space in front of each of them. -/
lemma words_spaced (texts : List String) {rest : List Char}
    (h : ∀ c ∈ rest.head?, isBlank c = true) :
    words (texts.flatMap (fun text => ' ' :: text.toList) ++ rest) =
      allWords texts ++ words rest := by
  have hspace : isBlank ' ' = true := by decide
  induction texts with
  | nil => simp
  | cons text texts ih =>
    have hhead : ∀ c ∈ (texts.flatMap (fun text => ' ' :: text.toList) ++ rest).head?,
        isBlank c = true := by
      cases texts with
      | nil => exact h
      | cons next texts => simp [hspace]
    rw [List.flatMap_cons, List.cons_append, List.cons_append, words_blank_cons hspace,
      List.append_assoc, words_append _ hhead, ih, allWords_cons, List.append_assoc]

/-- Words are their own words. -/
lemma allWords_eq_self {texts : List String} (h : ∀ text ∈ texts, IsWord text) :
    allWords texts = texts := by
  induction texts with
  | nil => rfl
  | cons text rest ih =>
    rw [allWords_cons, (h text List.mem_cons_self).words,
      ih fun other hother => h other (List.mem_cons_of_mem _ hother)]
    rfl

end MakeDeps.Text
