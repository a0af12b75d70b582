import MakeDeps.Proofs.Makefile.Names

/-!
# What references stand for

A Makefile is read from its first line to its last. A variable gets its value where it is assigned,
with all references in the value expanded (`environment`); a rule is expanded with the values that
there are where it stands (`rulesIn`). Of the functions of `make` only `filter-out` is known here,
and of the operators only those that settle the value at once. A text without a dollar sign expands
to itself, a reference to the value of its variable (`expand_reference`), and words that are closed
expand one by one (`expandWords_eq`).
-/

namespace MakeDeps.Makefile

/-- Does the pattern match the word? The first percent sign in it stands for any text. -/
def matchesPattern (pattern word : String) : Bool :=
  match Text.cutFirst '%' pattern.toList with
  | some (front, back) =>
    front.isPrefixOf word.toList && back.isSuffixOf word.toList &&
      front.length + back.length ≤ word.toList.length
  | none => word = pattern

/-- The words of a text that none of the patterns matches. -/
def filterOut (patterns text : List Char) : List String :=
  (Text.words text).filter fun word =>
    !(Text.words patterns).any fun pattern => matchesPattern pattern word

/-- Of two patterns, one with a percent sign. -/
example : filterOut "b%.o a.o".toList "a.o b.o bc.o b.c a.o ab.o".toList = ["b.c", "ab.o"] := by
  decide

/-- How many brackets are open behind the character. -/
def openBehind (depth : Nat) (c : Char) : Nat :=
  if c = '(' then depth + 1 else if c = ')' then depth - 1 else depth

/-- The text before and the text after the first `stop` outside the brackets of the text. -/
def cutOutside (stop : Char) : Nat → List Char → Option (List Char × List Char)
  | _, [] => none
  | depth, c :: cs =>
    if depth = 0 ∧ c = stop then some ([], cs)
    else (cutOutside stop (openBehind depth c) cs).map fun (l, r) => (c :: l, r)

/-- Nothing but the `stop` is lost in the cut. -/
lemma length_of_cutOutside {stop : Char} {depth : Nat} {cs l r : List Char}
    (h : cutOutside stop depth cs = some (l, r)) : l.length + r.length < cs.length := by
  induction cs generalizing depth l with
  | nil => cases h
  | cons c cs ih =>
    rw [cutOutside] at h
    split at h
    · cases h
      simp
    · obtain ⟨⟨l', r'⟩, hcut, heq⟩ := Option.map_eq_some_iff.1 h
      cases heq
      have hlength := ih hcut
      simp only [List.length_cons]
      omega

/-- The cut comes behind what has neither the `stop` nor a bracket in it. -/
lemma cutOutside_append {stop : Char} {depth : Nat} {xs : List Char}
    (h : ∀ c ∈ xs, c ≠ '(' ∧ c ≠ ')' ∧ (depth = 0 → c ≠ stop)) (ys : List Char) :
    cutOutside stop depth (xs ++ ys) =
      (cutOutside stop depth ys).map fun (l, r) => (xs ++ l, r) := by
  induction xs with
  | nil => simp
  | cons c xs ih =>
    obtain ⟨hopen, hclose, hstop⟩ := h c List.mem_cons_self
    have hnot : ¬ (depth = 0 ∧ c = stop) := fun hc => hstop hc.1 hc.2
    have hdepth : openBehind depth c = depth := by
      rw [openBehind, if_neg hopen, if_neg hclose]
    rw [List.cons_append, cutOutside, if_neg hnot, hdepth,
      ih fun d hd => h d (List.mem_cons_of_mem _ hd), Option.map_map]
    rfl

/-- The cut is at a `stop` that nothing like it and no bracket stands before. -/
lemma cutOutside_append_cons {stop : Char} {xs : List Char}
    (h : ∀ c ∈ xs, c ≠ '(' ∧ c ≠ ')' ∧ c ≠ stop) (ys : List Char) :
    cutOutside stop 0 (xs ++ stop :: ys) = some (xs, ys) := by
  rw [cutOutside_append fun c hc => ⟨(h c hc).1, (h c hc).2.1, fun _ => (h c hc).2.2⟩, cutOutside,
    if_pos ⟨rfl, rfl⟩]
  simp

/-- The cut comes behind a reference whose name has no bracket in it. -/
lemma cutOutside_reference {stop : Char} {name : String}
    (hname : ∀ c ∈ name.toList, c ≠ '(' ∧ c ≠ ')')
    (hdollar : stop ≠ '$') (hopen : stop ≠ '(') (ys : List Char) :
    cutOutside stop 0 ((reference name).toList ++ ys) =
      (cutOutside stop 0 ys).map fun (l, r) => ((reference name).toList ++ l, r) := by
  have hlist : (reference name).toList = '$' :: '(' :: (name.toList ++ [')']) := by
    simp [reference]
  have hdepth : openBehind (openBehind 0 '$') '(' = 1 := rfl
  have hinside : ∀ c ∈ name.toList, c ≠ '(' ∧ c ≠ ')' ∧ (1 = 0 → c ≠ stop) := fun c hc =>
    ⟨(hname c hc).1, (hname c hc).2, fun hone => absurd hone (by decide)⟩
  have hbehind : cutOutside stop 1 (')' :: ys) =
      (cutOutside stop 0 ys).map fun (l, r) => (')' :: l, r) := by
    rw [cutOutside, if_neg (by simp)]
    rfl
  rw [hlist, List.cons_append, List.cons_append, cutOutside, if_neg (by simpa using hdollar.symm),
    cutOutside, if_neg (by simpa [openBehind] using hopen.symm), hdepth, List.append_assoc,
    cutOutside_append hinside, List.singleton_append, hbehind]
  simp [Option.map_map, Function.comp_def]

/-- The patterns and the text of a call of `filter-out`, as they stand between the brackets. -/
def filterOut? (content : List Char) : Option (List Char × List Char) :=
  match Text.dropStart? "filter-out".toList content with
  | some (c :: arguments) => if Text.isBlank c then cutOutside ',' 0 arguments else none
  | _ => none

/-- The arguments of a call are shorter than the call. -/
lemma length_of_filterOut? {content patterns text : List Char}
    (h : filterOut? content = some (patterns, text)) :
    patterns.length + text.length < content.length := by
  unfold filterOut? at h
  split at h
  · next c arguments hdrop =>
    split at h
    · have hlength := length_of_cutOutside h
      have hcontent := congrArg List.length (Text.dropStart?_eq_some_iff.1 hdrop)
      rw [List.length_append, List.length_cons] at hcontent
      omega
    · cases h
  · cases h

/-- The values of the variables. What has not been assigned is empty. -/
abbrev Environment := String → List Char

/-- The text with values in place of references. Two dollar signs stand for one; a reference that is
not closed ends the text, and so does a dollar sign at its end. -/
def expand (env : Environment) : List Char → List Char
  | [] => []
  | ['$'] => []
  | '$' :: '(' :: rest =>
    match _hclose : cutOutside ')' 0 rest with
    | none => []
    | some (content, behind) =>
      (match _hcall : filterOut? content with
        | some (patterns, text) =>
          (Line.words (filterOut (expand env patterns) (expand env text))).toList
        | none => env (String.ofList (expand env content))) ++ expand env behind
  | '$' :: c :: rest => (if c = '$' then ['$'] else env (String.singleton c)) ++ expand env rest
  | c :: rest => c :: expand env rest
  termination_by cs => cs.length
  decreasing_by
    all_goals
      try have hclosed := length_of_cutOutside _hclose
      try have hcalled := length_of_filterOut? _hcall
      simp only [List.length_cons]
      omega

/-- The words that a rule or a command gets where references are expanded. -/
def expandWords (env : Environment) (items : List String) : List String :=
  Text.words (expand env (Line.words items).toList)

section expand

variable {env : Environment} {name : String}

/-- A character other than a dollar sign stands for itself. -/
lemma expand_cons {c : Char} (h : c ≠ '$') (rest : List Char) :
    expand env (c :: rest) = c :: expand env rest := by
  rw [expand.eq_5]
  · rintro rfl
    exact absurd rfl h
  · rintro _ rfl
    exact absurd rfl h
  · rintro _ _ rfl
    exact absurd rfl h

/-- Nothing stands for nothing. -/
lemma expand_nil : expand env [] = [] := by
  rw [expand]

/-- What has no dollar sign in it stands for itself. -/
lemma expand_append {xs : List Char} (h : '$' ∉ xs) (ys : List Char) :
    expand env (xs ++ ys) = xs ++ expand env ys := by
  induction xs with
  | nil => rfl
  | cons c xs ih =>
    obtain ⟨hc, hxs⟩ := not_or.1 (mt List.mem_cons.2 h)
    rw [List.cons_append, expand_cons (Ne.symm hc), ih hxs]
    rfl

/-- A text without a dollar sign is expanded to itself. -/
lemma expand_eq_self {xs : List Char} (h : '$' ∉ xs) : expand env xs = xs := by
  have happend : expand env (xs ++ []) = xs ++ expand env [] := expand_append h []
  rwa [List.append_nil, expand_nil, List.append_nil] at happend

/-- A reference that is no call is replaced by the value. -/
lemma expand_value {rest content behind : List Char}
    (hclose : cutOutside ')' 0 rest = some (content, behind)) (hcall : filterOut? content = none) :
    expand env ('$' :: '(' :: rest) =
      env (String.ofList (expand env content)) ++ expand env behind := by
  rw [expand]
  split
  · next hnone => cases hclose.symm.trans hnone
  · next other _ hsome =>
    cases hclose.symm.trans hsome
    split
    · next hcalled => cases hcall.symm.trans hcalled
    · rfl

/-- A call is replaced by what is left of the text. -/
lemma expand_call {rest content behind patterns text : List Char}
    (hclose : cutOutside ')' 0 rest = some (content, behind))
    (hcall : filterOut? content = some (patterns, text)) :
    expand env ('$' :: '(' :: rest) =
      (Line.words (filterOut (expand env patterns) (expand env text))).toList ++
        expand env behind := by
  rw [expand]
  split
  · next hnone => cases hclose.symm.trans hnone
  · next other _ hsome =>
    cases hclose.symm.trans hsome
    split
    · next hcalled =>
      cases hcall.symm.trans hcalled
      rfl
    · next hnone => cases hcall.symm.trans hnone

/-- A text without a blank is no call. -/
lemma filterOut?_eq_none {content : List Char} (h : ∀ c ∈ content, Text.isBlank c = false) :
    filterOut? content = none := by
  unfold filterOut?
  split
  · next c arguments hdrop =>
    have hmem : c ∈ content := by
      rw [← Text.dropStart?_eq_some_iff.1 hdrop]
      exact List.mem_append_right _ List.mem_cons_self
    rw [h c hmem]
    rfl
  · rfl

/-- A reference to a variable stands for its value, whatever comes behind it. -/
lemma expand_reference (h : IsPlain name) (rest : List Char) :
    expand env ((reference name).toList ++ rest) = env name ++ expand env rest := by
  have hlist : (reference name).toList ++ rest = '$' :: '(' :: (name.toList ++ ')' :: rest) := by
    simp [reference]
  have hopen : '(' ∉ name.toList := h.not_mem (by decide)
  have hclose : ')' ∉ name.toList := h.not_mem (by decide)
  have hcut : cutOutside ')' 0 (name.toList ++ ')' :: rest) = some (name.toList, rest) := by
    apply cutOutside_append_cons
    intro c hc
    refine ⟨?_, ?_, ?_⟩
    · exact fun heq => hopen (heq ▸ hc)
    · exact fun heq => hclose (heq ▸ hc)
    · exact fun heq => hclose (heq ▸ hc)
  have hcall : filterOut? name.toList = none :=
    filterOut?_eq_none fun c hc => not_isBlank_of_isNameChar (h.isNameChar c hc)
  rw [hlist, expand_value hcut hcall, expand_eq_self h.not_mem_dollar, String.ofList_toList]

/-- A reference by itself stands for the value. -/
lemma expand_reference_self (h : IsPlain name) : expand env (reference name).toList = env name := by
  have hreference : expand env ((reference name).toList ++ []) = env name ++ expand env [] :=
    expand_reference h []
  rwa [List.append_nil, expand_nil, List.append_nil] at hreference

/-- The characters of a name are no brackets. -/
lemma IsPlain.ne_bracket (h : IsPlain name) : ∀ c ∈ name.toList, c ≠ '(' ∧ c ≠ ')' := by
  intro c hc
  constructor
  · rintro rfl
    exact h.not_mem (by decide) hc
  · rintro rfl
    exact h.not_mem (by decide) hc

/-- A call with a reference in either argument: the first comma outside the references divides the
pattern from the text. -/
lemma expand_filterOut {directory : String} {front back : List Char}
    (hdirectory : IsPlain directory)
    (hname : IsPlain name) (hfront : ∀ c ∈ front, c ∉ ['$', '(', ')', ','])
    (hback : ∀ c ∈ back, c ∉ ['$', '(', ')']) :
    expand env ("$(filter-out ".toList ++ ((reference directory).toList ++
        (front ++ ',' :: (back ++ ((reference name).toList ++ [')']))))) =
      (Line.words (filterOut (env directory ++ front) (back ++ env name))).toList := by
  simp only [List.mem_cons, List.not_mem_nil, or_false, not_or] at hfront hback
  have hcut : cutOutside ')' 0 ("filter-out ".toList ++ ((reference directory).toList ++
      (front ++ ',' :: (back ++ ((reference name).toList ++ [')']))))) =
        some ("filter-out ".toList ++ ((reference directory).toList ++
          (front ++ ',' :: (back ++ (reference name).toList))), []) := by
    have hcall : ∀ c ∈ "filter-out ".toList, c ≠ '(' ∧ c ≠ ')' ∧ (0 = 0 → c ≠ ')') := by
      simp
    have hpattern : ∀ c ∈ front, c ≠ '(' ∧ c ≠ ')' ∧ (0 = 0 → c ≠ ')') := fun c hc =>
      ⟨(hfront c hc).2.1, (hfront c hc).2.2.1, fun _ => (hfront c hc).2.2.1⟩
    have htext : ∀ c ∈ ',' :: back, c ≠ '(' ∧ c ≠ ')' ∧ (0 = 0 → c ≠ ')') := by
      simp only [List.forall_mem_cons]
      exact ⟨by decide, fun c hc => ⟨(hback c hc).2.1, (hback c hc).2.2, fun _ => (hback c hc).2.2⟩⟩
    rw [cutOutside_append hcall, cutOutside_reference hdirectory.ne_bracket (by decide) (by decide),
      cutOutside_append hpattern, ← List.cons_append, cutOutside_append htext,
      cutOutside_reference hname.ne_bracket (by decide) (by decide)]
    simp [cutOutside]
  have hcall : filterOut? ("filter-out ".toList ++ ((reference directory).toList ++
      (front ++ ',' :: (back ++ (reference name).toList)))) =
        some ((reference directory).toList ++ front, back ++ (reference name).toList) := by
    have hdrop : Text.dropStart? "filter-out".toList ("filter-out ".toList ++
        ((reference directory).toList ++ (front ++ ',' :: (back ++ (reference name).toList)))) =
          some (' ' :: ((reference directory).toList ++
            (front ++ ',' :: (back ++ (reference name).toList)))) :=
      Text.dropStart?_eq_some_iff.2 (by simp)
    have hcomma : ∀ c ∈ front, c ≠ '(' ∧ c ≠ ')' ∧ c ≠ ',' := fun c hc =>
      ⟨(hfront c hc).2.1, (hfront c hc).2.2.1, (hfront c hc).2.2.2⟩
    rw [filterOut?, hdrop]
    dsimp only
    rw [if_pos (by decide), cutOutside_reference hdirectory.ne_bracket (by decide) (by decide),
      cutOutside_append_cons hcomma]
    rfl
  have hpattern : '$' ∉ front := fun hmem => (hfront _ hmem).1 rfl
  have htext : '$' ∉ back := fun hmem => (hback _ hmem).1 rfl
  have hopen : "$(filter-out ".toList = '$' :: '(' :: "filter-out ".toList := by simp
  rw [hopen, List.cons_append, List.cons_append, expand_call hcut hcall, expand_nil,
    List.append_nil, expand_reference hdirectory, expand_eq_self hpattern, expand_append htext,
    expand_reference_self hname]

end expand

/-- Is what the text stands for independent of what comes behind it? -/
def IsClosed (text : String) : Prop :=
  ∀ env rest, expand env (text.toList ++ rest) = expand env text.toList ++ expand env rest

section closed

variable {env : Environment} {items : List String} {text name : String}

/-- A text without a dollar sign stands for itself. -/
lemma isClosed_of_not_mem (h : '$' ∉ text.toList) : IsClosed text := by
  intro env rest
  rw [expand_append h, expand_eq_self h]

/-- A plain text stands for itself. -/
lemma IsPlain.isClosed (h : IsPlain text) : IsClosed text :=
  isClosed_of_not_mem h.not_mem_dollar

/-- A reference is closed, and so it is with a closed text behind it. -/
lemma isClosed_reference_append (hname : IsPlain name) (htext : IsClosed text) :
    IsClosed (reference name ++ text) := by
  intro env rest
  rw [String.toList_append, List.append_assoc, expand_reference hname, htext,
    expand_reference hname,
    List.append_assoc]

/-- A reference by itself is closed. -/
lemma isClosed_reference (name : String) (hname : IsPlain name) : IsClosed (reference name) := by
  intro env rest
  rw [expand_reference hname, expand_reference_self hname]

/-- Closed words are expanded one by one. -/
lemma expand_words (h : ∀ item ∈ items, IsClosed item) :
    expand env (Line.words items).toList =
      (Line.words (items.map fun item => String.ofList (expand env item.toList))).toList := by
  induction items with
  | nil => simp [Line.words, expand_nil]
  | cons item items ih =>
    have hitem := h item List.mem_cons_self
    have hitems := ih fun other hother => h other (List.mem_cons_of_mem _ hother)
    cases items with
    | nil => simp [Line.words]
    | cons next rest =>
      have hjoined : ∀ first second : String, ∀ others : List String,
          (Line.words (first :: second :: others)).toList =
            first.toList ++ ' ' :: (Line.words (second :: others)).toList := by
        simp [Line.words]
      rw [hjoined, hitem, expand_cons (by decide), hitems]
      simp [hjoined]

/-- So the words of closed words are theirs one after the other. -/
lemma expandWords_eq (h : ∀ item ∈ items, IsClosed item) :
    expandWords env items = items.flatMap fun item => Text.words (expand env item.toList) := by
  rw [expandWords, expand_words h, Text.words_joined, Text.allWords, List.flatMap_map]
  simp

/-- A reference by itself has the words of the value. -/
lemma expandWords_reference (h : IsPlain name) :
    expandWords env [reference name] = Text.words (env name) := by
  have hline : Line.words [reference name] = reference name := by
    simp [Line.words]
  rw [expandWords, hline, expand_reference_self h]

/-- The words of a reference are those of the value. -/
lemma words_reference (name : String) (hname : IsPlain name) :
    Text.words (expand env (reference name).toList) = Text.words (env name) := by
  rw [expand_reference_self hname]

/-- The words of a plain item are the item. -/
lemma words_plain {item : String} (hitem : IsPlain item) (hne : item ≠ "") :
    Text.words (expand env item.toList) = [item] := by
  rw [expand_eq_self hitem.not_mem_dollar, (hitem.isWord hne).words]

end closed

/-- The values after a line. What is defined in a way that is not settled there is not followed. -/
def Reading.define (env : Environment) : Reading → Environment
  | .assignment name value => Function.update env name (expand env (Line.words value).toList)
  | .addition name value =>
    Function.update env name (env name ++ ' ' :: expand env (Line.words value).toList)
  | _ => env

/-- The values after some lines. -/
def environment (env : Environment) (said : List Reading) : Environment :=
  said.foldl Reading.define env

/-- The rules, each with the values that there are where it begins. -/
def rulesIn (env : Environment) : List Reading → List (Environment × Rule)
  | [] => []
  | .rule targets prerequisites :: rest =>
    (env, ⟨targets, prerequisites, commands rest⟩) :: rulesIn env rest
  | line :: rest => rulesIn (line.define env) rest

/-- The targets of the rules. -/
def targetsIn (env : Environment) (said : List Reading) : List String :=
  (rulesIn env said).flatMap fun made => expandWords made.1 made.2.targets

section environment

variable {env here : Environment} {name : String} {value : List String} {said xs ys : List Reading}

/-- Values are defined one line after the other. -/
lemma environment_append (env : Environment) (xs ys : List Reading) :
    environment env (xs ++ ys) = environment (environment env xs) ys :=
  List.foldl_append

/-- A line changes no variable but the one it assigns. -/
lemma define_of_not_assigns {line : Reading} (h : line.assigns name = false) :
    line.define env name = env name := by
  cases line with
  | assignment other _ =>
    exact Function.update_of_ne (Ne.symm (by simpa [Reading.assigns] using h)) _ _
  | addition other _ =>
    exact Function.update_of_ne (Ne.symm (by simpa [Reading.assigns] using h)) _ _
  | definition _ _ => rfl
  | rule _ _ => rfl
  | command _ => rfl
  | nothing => rfl

/-- What no line assigns keeps its value. -/
lemma environment_of_not_assigned (h : said.filter (Reading.assigns name) = []) :
    environment env said name = env name := by
  induction said generalizing env with
  | nil => rfl
  | cons line said ih =>
    have hline := List.filter_eq_nil_iff.1 h
    have hrest : said.filter (Reading.assigns name) = [] :=
      List.filter_eq_nil_iff.2 fun other hother => hline other (List.mem_cons_of_mem _ hother)
    exact (ih hrest).trans (define_of_not_assigns (by simpa using hline line List.mem_cons_self))

/-- What one line assigns has that value if there is no reference in it. -/
lemma environment_of_assigned
    (h : said.filter (Reading.assigns name) = [.assignment name value])
    (hvalue : '$' ∉ (Line.words value).toList) :
    environment env said name = (Line.words value).toList := by
  induction said generalizing env with
  | nil => cases h
  | cons line said ih =>
    rw [List.filter_cons] at h
    split at h
    · obtain ⟨rfl, hrest⟩ := List.cons.inj h
      calc environment env (.assignment name value :: said) name
          = (Reading.assignment name value).define env name := environment_of_not_assigned hrest
        _ = expand env (Line.words value).toList := Function.update_self ..
        _ = (Line.words value).toList := expand_eq_self hvalue
    · exact ih h

/-- The values aside, these are the rules. -/
lemma map_snd_rulesIn (env : Environment) (said : List Reading) :
    (rulesIn env said).map Prod.snd = rules said := by
  induction said generalizing env with
  | nil => rfl
  | cons line said ih =>
    cases line with
    | rule _ _ => exact congrArg _ (ih env)
    | assignment _ _ => exact ih _
    | addition _ _ => exact ih _
    | definition _ _ => exact ih _
    | command _ => exact ih _
    | nothing => exact ih _

/-- Behind lines without a rule, the rules are read with the values that the lines define. -/
lemma rulesIn_append (h : rules xs = []) (env : Environment) (ys : List Reading) :
    rulesIn env (xs ++ ys) = rulesIn (environment env xs) ys := by
  induction xs generalizing env with
  | nil => rfl
  | cons line xs ih =>
    cases line with
    | rule _ _ => cases h
    | assignment _ _ => exact ih h _
    | addition _ _ => exact ih h _
    | definition _ _ => exact ih h _
    | command _ => exact ih h _
    | nothing => exact ih h _

/-- What no line assigns has its value in all rules. -/
lemma value_of_mem_rulesIn {rule : Rule} (hrule : (here, rule) ∈ rulesIn env said)
    (h : said.filter (Reading.assigns name) = []) : here name = env name := by
  induction said generalizing env with
  | nil => cases hrule
  | cons line said ih =>
    have hline := List.filter_eq_nil_iff.1 h
    have hrest : said.filter (Reading.assigns name) = [] :=
      List.filter_eq_nil_iff.2 fun other hother => hline other (List.mem_cons_of_mem _ hother)
    have hsame : line.define env name = env name :=
      define_of_not_assigns (by simpa using hline line List.mem_cons_self)
    cases line with
    | rule targets prerequisites =>
      rcases List.mem_cons.1 hrule with heq | hrule
      · cases heq
        rfl
      · exact ih hrule hrest
    | assignment _ _ => exact (ih hrule hrest).trans hsame
    | addition _ _ => exact (ih hrule hrest).trans hsame
    | definition _ _ => exact ih hrule hrest
    | command _ => exact ih hrule hrest
    | nothing => exact ih hrule hrest

end environment

end MakeDeps.Makefile
